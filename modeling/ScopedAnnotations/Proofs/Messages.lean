import ScopedAnnotations.Proofs.Showing
import ScopedAnnotations.Scope

/-!
# What a refusal says

When scopes are incompatible, a person gets to see a message. It is a sentence,
with the module of each of the two contexts written into it where the contexts
are the reason. The modules are written as they are shown, and they may be of any
length; what is between them is a comma and a word, of which there are plenty in
the modules themselves.

The message is nevertheless enough to know the refusal. The end of the first
module is seen from the text of the module, and what is between the two is
then at a known place; and it is the first of the two that is the outer one. So
no two contexts are reported like two others, nor like the same two with their
sides exchanged.
-/

namespace ScopedAnnotations

namespace ScopeMismatch

/-- A message about contexts is the outer module, what is between the two, and the
inner module, with a bracket around both. -/
theorem toString_context (outer inner : ModuleContext) :
    toString (context outer inner)
      = "module contexts differ (outer: " ++ (describe outer.module?
        ++ (", inner: " ++ (describe inner.module? ++ ")"))) := by
  show "module contexts differ (outer: " ++ describe outer.module? ++ ", inner: "
    ++ describe inner.module? ++ ")" = _
  rw [String.append_assoc, String.append_assoc, String.append_assoc]

/-- **Both contexts are known from the message**, each on its side. -/
theorem toString_context_inj {o i o' i' : ModuleContext} :
    toString (context o i) = toString (context o' i') ↔ o = o' ∧ i = i' := by
  constructor
  · intro h
    rw [toString_context, toString_context, String.append_right_inj] at h
    -- The comma ends the outer module and the bracket the inner one.
    have hcomma (rest : String) : Term.Delimits (", inner: " ++ rest).toList := by
      rw [String.toList_append]
      exact Term.delimits_cons (by decide)
    have hbracket : Term.Delimits ")".toList := Term.delimits_cons (by decide)
    obtain ⟨houter, hrest⟩ := eq_of_describe_append (hcomma _) (hcomma _) h
    obtain ⟨hinner, -⟩ := eq_of_describe_append hbracket hbracket
      ((String.append_right_inj _).mp hrest)
    exact ⟨ModuleContext.ext houter, ModuleContext.ext hinner⟩
  · rintro ⟨rfl, rfl⟩
    rfl

/-- The two reasons begin with different letters. -/
theorem toString_resolver_ne (outer inner : ModuleContext) :
    toString resolver ≠ toString (context outer inner) := by
  intro h
  have hlist := congrArg String.toList h
  rw [toString_context, String.toList_append] at hlist
  exact absurd (List.cons.inj hlist).1 (by decide)

theorem toString_inj {a b : ScopeMismatch} : toString a = toString b ↔ a = b := by
  cases a with
  | resolver =>
    cases b with
    | resolver => exact iff_of_true rfl rfl
    | context outer inner => exact iff_of_false (toString_resolver_ne outer inner) nofun
  | context o i =>
    cases b with
    | resolver => exact iff_of_false (toString_resolver_ne o i).symm nofun
    | context o' i' => rw [toString_context_inj, context.injEq]

end ScopeMismatch

namespace IndexError

theorem toString_incompatibleScope_inj {a b : ScopeMismatch} :
    toString (incompatibleScope a) = toString (incompatibleScope b) ↔ a = b :=
  (String.append_right_inj _).trans ScopeMismatch.toString_inj

/-- **A refusal is known from its message.** Two refusals have the same message
only if they are equal, whether or not the contexts in them differ from one
another. In particular a message says whether the resolvers are the reason or the
contexts, and if it is the contexts, it says where each of them is, the outer one
and the inner one. -/
theorem messages_identify :
    (∀ e e' : IndexError, toString e = toString e' ↔ e = e')
    ∧ (∀ outer inner : ModuleContext, toString (incompatibleScope .resolver)
      ≠ toString (incompatibleScope (.context outer inner)))
    ∧ ∀ o i o' i' : ModuleContext, toString (incompatibleScope (.context o i))
        = toString (incompatibleScope (.context o' i'))
      ↔ o.path = o'.path ∧ i.path = i'.path := by
  refine ⟨fun e e' => ?_, fun outer inner => ?_, fun o i o' i' => ?_⟩
  · obtain ⟨a⟩ := e
    obtain ⟨b⟩ := e'
    rw [toString_incompatibleScope_inj, incompatibleScope.injEq]
  · exact mt toString_incompatibleScope_inj.mp nofun
  · rw [toString_incompatibleScope_inj, ScopeMismatch.context.injEq, ModuleContext.path_inj,
      ModuleContext.path_inj]

end IndexError

end ScopedAnnotations
