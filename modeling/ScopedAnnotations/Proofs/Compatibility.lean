import ScopedAnnotations.Index.Merge

/-!
# When scopes are compatible

Whether two scopes are compatible is asked of one of them about the other, and
the answer is not the same both ways: it says which of two contexts is the outer
one. All the same the question is a comparison. It is settled by the resolvers
and the contexts alone, it comes out well from one side exactly if it does from
the other, and the refusal from the other side is the same one turned round
(`ResolutionScope.checkCompatible_comm`).

What a check can come to is said once, as a relation with one case for each
reason (`ResolutionScope.Comparison`), and everything here is a case analysis of
it. In the first case nothing is asked of the contexts. That is the whole of the
precedence: two scopes that differ in both respects fall under the first case
and not under the second.

A merge asks the question before anything else, so that the annotations have no
say in whether it is refused nor in what is said then
(`Index.merge_eq_error_iff`).
-/

namespace ScopedAnnotations

/-- The same difference, seen from the other scope. -/
def ScopeMismatch.swap : ScopeMismatch → ScopeMismatch
  | resolver => resolver
  | context outer inner => context inner outer

/-- The same refusal, seen from the other scope. -/
def IndexError.swap : IndexError → IndexError
  | incompatibleScope mismatch => incompatibleScope mismatch.swap

namespace ResolutionScope

/-- **What comes of comparing two scopes.** -/
inductive Comparison (outer inner : ResolutionScope) : Except IndexError Unit → Prop where
  /-- They go by different resolvers. -/
  | otherResolver (h : outer.resolver ≠ inner.resolver) :
    Comparison outer inner (.error (.incompatibleScope .resolver))
  /-- They go by one resolver, in different modules. -/
  | otherContext (hr : outer.resolver = inner.resolver) (hc : outer.context ≠ inner.context) :
    Comparison outer inner
      (.error (.incompatibleScope (.context outer.context inner.context)))
  /-- There is no difference. -/
  | same (hr : outer.resolver = inner.resolver) (hc : outer.context = inner.context) :
    Comparison outer inner (.ok ())

variable {outer inner : ResolutionScope}

/-- The check is the comparison. -/
theorem checkCompatible_eq_iff {result : Except IndexError Unit} :
    outer.checkCompatible inner = result ↔ Comparison outer inner result := by
  constructor
  · rintro rfl
    unfold checkCompatible
    split
    · case isTrue hr => exact .otherResolver hr
    · case isFalse hr =>
      split
      · case isTrue hc => exact .otherContext (Decidable.not_not.mp hr) hc
      · case isFalse hc => exact .same (Decidable.not_not.mp hr) (Decidable.not_not.mp hc)
  · intro h
    cases h with
    | otherResolver h => exact if_pos h
    | otherContext hr hc => rw [checkCompatible, if_neg (not_not_intro hr), if_pos hc]
    | same hr hc => rw [checkCompatible, if_neg (not_not_intro hr), if_neg (not_not_intro hc)]

/-- **Another resolver is the reason whenever there is one**, whether or not the
contexts differ as well. -/
theorem checkCompatible_eq_resolver_iff :
    outer.checkCompatible inner = .error (.incompatibleScope .resolver)
      ↔ outer.resolver ≠ inner.resolver := by
  rw [checkCompatible_eq_iff]
  constructor
  · rintro ⟨h⟩
    exact h
  · exact .otherResolver

/-- **Another context is the reason if nothing else differs**, and the reason
holds the two contexts as they are. -/
theorem checkCompatible_eq_context_iff {o i : ModuleContext} :
    outer.checkCompatible inner = .error (.incompatibleScope (.context o i))
      ↔ outer.resolver = inner.resolver ∧ o = outer.context ∧ i = inner.context ∧ o ≠ i := by
  rw [checkCompatible_eq_iff]
  constructor
  · intro h
    cases h with
    | otherContext hr hc => exact ⟨hr, rfl, rfl, hc⟩
  · rintro ⟨hr, rfl, rfl, hc⟩
    exact .otherContext hr hc

/-- Scopes are the same if they go by one resolver and by equal contexts. -/
theorem sameAs_iff_resolver_context {a b : ResolutionScope} :
    a.sameAs b = true ↔ a.resolver = b.resolver ∧ a.context = b.context := by
  rw [sameAs_iff, ← checkCompatible_eq_ok_iff, checkCompatible_eq_iff]
  constructor
  · intro h
    cases h with
    | same hr hc => exact ⟨hr, hc⟩
  · rintro ⟨hr, hc⟩
    exact .same hr hc

theorem sameAs_equivalence : Equivalence fun a b : ResolutionScope => a.sameAs b = true where
  refl _ := sameAs_iff.mpr rfl
  symm h := sameAs_iff.mpr (sameAs_iff.mp h).symm
  trans h h' := sameAs_iff.mpr ((sameAs_iff.mp h).trans (sameAs_iff.mp h'))

theorem Comparison.swap {result : Except IndexError Unit} (h : Comparison outer inner result) :
    Comparison inner outer (result.mapError IndexError.swap) := by
  cases h with
  | otherResolver h => exact .otherResolver (Ne.symm h)
  | otherContext hr hc => exact .otherContext hr.symm (Ne.symm hc)
  | same hr hc => exact .same hr.symm hc.symm

/-- **Asked from the other side**, the answer is the same one turned round. -/
theorem checkCompatible_comm (outer inner : ResolutionScope) :
    inner.checkCompatible outer = (outer.checkCompatible inner).mapError IndexError.swap :=
  checkCompatible_eq_iff.mpr (checkCompatible_eq_iff.mp rfl).swap

/-- **The same scopes are those that no check tells apart**, neither when they are
asked nor when they are asked about. -/
theorem sameAs_iff_forall_checkCompatible {a a' : ResolutionScope} :
    a.sameAs a' = true ↔ ∀ b : ResolutionScope,
      a.checkCompatible b = a'.checkCompatible b ∧ b.checkCompatible a = b.checkCompatible a' := by
  constructor
  · intro h b
    rw [sameAs_iff.mp h]
    exact ⟨rfl, rfl⟩
  · intro h
    -- One check is enough, that against the other scope itself.
    rw [sameAs_iff, ← checkCompatible_eq_ok_iff, (h a').1]
    exact checkCompatible_eq_ok_iff.mpr rfl

end ResolutionScope

/-! ## Merging -/

namespace Index

variable {outer inner : Index}

/-- **A merge is refused for the scopes**, and for no other reason. -/
theorem merge_eq_error_iff {e : IndexError} :
    outer.merge inner = .error e ↔ outer.scope.checkCompatible inner.scope = .error e := by
  rw [merge_eq]
  cases outer.scope.checkCompatible inner.scope with
  | ok u => exact iff_of_false nofun nofun
  | error e' =>
    constructor
    · rintro ⟨⟩
      rfl
    · rintro ⟨⟩
      rfl

theorem exists_merge_eq_ok_iff :
    (∃ merged, outer.merge inner = .ok merged)
      ↔ outer.scope.checkCompatible inner.scope = .ok () := by
  rw [ResolutionScope.checkCompatible_eq_ok_iff]
  constructor
  · rintro ⟨merged, h⟩
    exact (merge_eq_ok_iff.mp h).1
  · intro h
    exact ⟨_, merge_eq_ok_iff.mpr ⟨h, rfl⟩⟩

end Index

namespace ResolutionScope

/-- **Compatibility decides merging.** Being the same scope is an equivalence, and
it is to go by the same resolver and by equal contexts. If the resolvers differ,
they are the reason given, whatever the contexts. If only the contexts differ,
they are the reason, each of them on its side. From the other side the same is
said with the sides exchanged, and the scopes that are the same are those that no
check tells apart, on either side. Two indexes are refused to be merged for the
reason for which their scopes are incompatible, whatever their annotations, and
they are merged if there is none. -/
theorem compatible_decides_merge :
    Equivalence (fun a b : ResolutionScope => a.sameAs b = true)
    ∧ (∀ a b : ResolutionScope,
      a.sameAs b = true ↔ a.resolver = b.resolver ∧ a.context = b.context)
    ∧ (∀ a b : ResolutionScope, a.checkCompatible b = .ok () ↔ a.sameAs b = true)
    ∧ (∀ a b : ResolutionScope, a.checkCompatible b = .error (.incompatibleScope .resolver)
      ↔ a.resolver ≠ b.resolver)
    ∧ (∀ (a b : ResolutionScope) (outer inner : ModuleContext),
      a.checkCompatible b = .error (.incompatibleScope (.context outer inner))
        ↔ a.resolver = b.resolver ∧ outer = a.context ∧ inner = b.context ∧ outer ≠ inner)
    ∧ (∀ a b : ResolutionScope,
      b.checkCompatible a = (a.checkCompatible b).mapError IndexError.swap)
    ∧ (∀ a a' : ResolutionScope, a.sameAs a' = true ↔ ∀ b : ResolutionScope,
      a.checkCompatible b = a'.checkCompatible b ∧ b.checkCompatible a = b.checkCompatible a')
    ∧ ∀ outer inner : Index,
      (∀ e, outer.merge inner = .error e ↔ outer.scope.checkCompatible inner.scope = .error e)
      ∧ ((∃ merged, outer.merge inner = .ok merged)
        ↔ outer.scope.checkCompatible inner.scope = .ok ()) := by
  refine ⟨sameAs_equivalence, fun a b => sameAs_iff_resolver_context, fun a b => ?_,
    fun a b => checkCompatible_eq_resolver_iff,
    fun a b outer inner => checkCompatible_eq_context_iff, checkCompatible_comm,
    fun a a' => sameAs_iff_forall_checkCompatible,
    fun outer inner => ⟨fun e => Index.merge_eq_error_iff, Index.exists_merge_eq_ok_iff⟩⟩
  exact checkCompatible_eq_ok_iff.trans sameAs_iff.symm

end ResolutionScope

end ScopedAnnotations
