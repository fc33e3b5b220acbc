import ScopedAnnotations.Proofs.Splitting
import ScopedAnnotations.Text.Describe

/-!
# Different values look different

A value is shown by a text that says how it is made, with the numbers of names
in place of their texts. This module says that nothing is lost on the way: from
the text of an annotation, a type or a path it is clear which one it is, whatever
the numbers in it are and however wide they are.

The two steps in which the text is made are each undone by themselves. That a
term can be read off its text is not about any type in particular. What is asked
of a type is only that different values have different terms, and that the labels
in them are identifiers (`LawfulDescribable`); this is passed on from the parts of
a value to the value.

Of types a little more is true. A type may be a bare word, and a bare word is
usually only found to be at its end when something else follows. But no word that
a type begins with is the beginning of another, so that the text of a type shows
where it ends even if nothing delimits it, and no type looks like the beginning of
another type (`TypeExpr.selfDelimiting`).
-/

namespace ScopedAnnotations

/-- **A type whose values can be told apart when they are shown.** -/
class LawfulDescribable (α : Type) [Describable α] : Prop where
  /-- Different values have different terms. -/
  eq_of_term_eq : ∀ {a b : α}, term a = term b → a = b
  /-- The labels in a term are identifiers. -/
  wellLabelled : ∀ a : α, (term a).WellLabelled

export LawfulDescribable (eq_of_term_eq wellLabelled)

section Describe

variable {α : Type} [Describable α] [LawfulDescribable α]

/-- **A text begins with one value at most**, if the end of the value can be
seen. -/
theorem eq_of_render_term_append {a b : α} {r s : List Char} (ha : (term a).EndsBefore r)
    (hb : (term b).EndsBefore s) (h : (term a).render ++ r = (term b).render ++ s) :
    a = b ∧ r = s := by
  obtain ⟨hterm, hrest⟩ := Term.eq_of_render_append (term a) (term b) (wellLabelled a)
    (wellLabelled b) ha hb h
  exact ⟨eq_of_term_eq hterm, hrest⟩

omit [LawfulDescribable α] in
theorem toList_describe_append (a : α) (rest : String) :
    (describe a ++ rest).toList = (term a).render ++ rest.toList := by
  rw [String.toList_append, describe, Term.text, String.toList_ofList]

/-- A value is known from a text that begins with it, and so is the rest of the
text, if the rest delimits the value. -/
theorem eq_of_describe_append {a b : α} {rest rest' : String}
    (hrest : Term.Delimits rest.toList) (hrest' : Term.Delimits rest'.toList)
    (h : describe a ++ rest = describe b ++ rest') : a = b ∧ rest = rest' := by
  have hlist := congrArg String.toList h
  rw [toList_describe_append, toList_describe_append] at hlist
  obtain ⟨rfl, htail⟩ := eq_of_render_term_append (hrest.endsBefore _) (hrest'.endsBefore _) hlist
  exact ⟨rfl, String.toList_inj.mp htail⟩

/-- **The text of a value says which value it is.** -/
theorem describe_inj {a b : α} : describe a = describe b ↔ a = b := by
  refine ⟨fun h => ?_, congrArg describe⟩
  have hempty : Term.Delimits "".toList := Term.delimits_nil
  exact (eq_of_describe_append hempty hempty (congrArg (· ++ "") h)).1

/-- What is in the brackets of a call is known from the term of the call. -/
theorem eq_of_call_term_eq {head : String} {a b : α}
    (h : Term.call head (term a) = .call head (term b)) : a = b :=
  eq_of_term_eq (Term.call.inj h).2

/-- Both parts of a record are known from its term. -/
theorem eq_of_record_term_eq {β : Type} [Describable β] [LawfulDescribable β]
    {head label label' : String} {a a' : α} {b b' : β}
    (h : Term.record head [(label, term a), (label', term b)] false
      = .record head [(label, term a'), (label', term b')] false) : a = a' ∧ b = b' := by
  simp only [Term.record.injEq, List.cons.injEq, Prod.mk.injEq, true_and, and_true] at h
  exact ⟨eq_of_term_eq h.1, eq_of_term_eq h.2⟩

end Describe

/-! ## What values are made of -/

instance : LawfulDescribable Name where
  eq_of_term_eq h := by
    injection h with _ hnumber
    injection hnumber with hnumber
    exact Name.ext (UInt32.toNat_inj.mp hnumber)
  wellLabelled _ := ⟨by decide, trivial⟩

instance : LawfulDescribable Bool where
  eq_of_term_eq {a b} h := by
    injection h with hword
    cases a <;> cases b
    · rfl
    · exact absurd hword (by decide)
    · exact absurd hword (by decide)
    · rfl
  wellLabelled
    | true => show Term.isIdentifier "true" = true by decide
    | false => show Term.isIdentifier "false" = true by decide

section Containers

variable {α : Type} [Describable α] [LawfulDescribable α]

instance : LawfulDescribable (Option α) where
  eq_of_term_eq {a b} h := by
    cases a with
    | none =>
      cases b with
      | none => rfl
      | some b => cases h
    | some a =>
      cases b with
      | none => cases h
      | some b => exact congrArg some (eq_of_call_term_eq h)
  wellLabelled
    | none => show Term.isIdentifier "None" = true by decide
    | some a => ⟨by decide, wellLabelled a⟩

theorem wellLabelledItems_map : ∀ as : List α, Term.WellLabelledItems (as.map term)
  | [] => trivial
  | a :: as => ⟨wellLabelled a, wellLabelledItems_map as⟩

instance : LawfulDescribable (List α) where
  eq_of_term_eq h := by
    injection h with hterms
    exact (List.map_inj_right fun _ _ => eq_of_term_eq).mp hterms
  wellLabelled := wellLabelledItems_map

end Containers

instance : LawfulDescribable QualifiedName where
  eq_of_term_eq {p q} h := by
    injection h with _ hfields
    simp only [List.cons.injEq, Prod.mk.injEq, true_and, and_true] at hfields
    obtain ⟨hqualifier, hname, habsolute⟩ := hfields
    cases p; cases q
    exact congr (congr (congrArg QualifiedName.mk (eq_of_term_eq hqualifier))
      (eq_of_term_eq hname)) (eq_of_term_eq habsolute)
  wellLabelled path :=
    ⟨by decide, by decide, wellLabelled path.qualifier, by decide, wellLabelled path.name,
      by decide, wellLabelled path.absolute, trivial⟩

instance : LawfulDescribable ModuleContext where
  eq_of_term_eq h := by
    injection h with _ hfields
    simp only [List.cons.injEq, Prod.mk.injEq, true_and, and_true] at hfields
    exact ModuleContext.ext (eq_of_term_eq hfields)
  wellLabelled context := ⟨by decide, by decide, wellLabelled context.module?, trivial⟩

/-! ## Types -/

namespace TypeExpr

mutual

theorem eq_of_toTerm_eq : ∀ {t u : TypeExpr}, t.toTerm = u.toTerm → t = u
  | any, u, h => by cases u <;> simp [toTerm] at h ⊢
  | void, u, h => by cases u <;> simp [toTerm] at h ⊢
  | nil, u, h => by cases u <;> simp [toTerm] at h ⊢
  | bool, u, h => by cases u <;> simp [toTerm] at h ⊢
  | selfType, u, h => by cases u <;> simp [toTerm] at h ⊢
  | instanceType, u, h => by cases u <;> simp [toTerm] at h ⊢
  | classType, u, h => by cases u <;> simp [toTerm] at h ⊢
  | var name, u, h => by
    cases u with
    | var name' => exact congrArg var (eq_of_call_term_eq h)
    | _ => simp [toTerm] at h
  | named path args, u, h => by
    cases u with
    | named path' args' =>
      simp only [toTerm, Term.record.injEq, List.cons.injEq, Prod.mk.injEq, Term.list.injEq,
        true_and, and_true] at h
      rw [eq_of_term_eq h.1, eq_of_toTerms_eq h.2]
    | _ => simp [toTerm] at h
  | tuple elems, u, h => by
    cases u with
    | tuple elems' =>
      simp only [toTerm, Term.call.injEq, Term.list.injEq, true_and] at h
      exact congrArg tuple (eq_of_toTerms_eq h)
    | _ => simp [toTerm] at h
  | union members, u, h => by
    cases u with
    | union members' =>
      simp only [toTerm, Term.call.injEq, Term.list.injEq, true_and] at h
      exact congrArg union (eq_of_toTerms_eq h)
    | _ => simp [toTerm] at h
  | optional inner, u, h => by
    cases u with
    | optional inner' =>
      simp only [toTerm, Term.call.injEq, true_and] at h
      exact congrArg optional (eq_of_toTerm_eq h)
    | _ => simp [toTerm] at h
  | proc method, u, h => by
    cases u with
    | proc method' =>
      simp only [toTerm, Term.call.injEq, true_and] at h
      exact congrArg proc (eq_of_signatureToTerm_eq h)
    | _ => simp [toTerm] at h

theorem eq_of_toTerms_eq : ∀ {ts us : List TypeExpr}, toTerms ts = toTerms us → ts = us
  | [], [], _ => rfl
  | t :: ts, u :: us, h => by
    simp only [toTerms, List.cons.injEq] at h
    rw [eq_of_toTerm_eq h.1, eq_of_toTerms_eq h.2]

theorem eq_of_signatureToTerm_eq :
    ∀ {s s' : Signature TypeExpr}, signatureToTerm s = signatureToTerm s' → s = s'
  | ⟨vars, params, none, ret⟩, ⟨vars', params', none, ret'⟩, h => by
    simp only [signatureToTerm, Term.record.injEq, List.cons.injEq, Prod.mk.injEq, Term.list.injEq,
      true_and, and_true] at h
    rw [eq_of_term_eq h.1, eq_of_toTerms_eq h.2.1, eq_of_toTerm_eq h.2.2]
  | ⟨vars, params, some ⟨blockParams, blockRet, required⟩, ret⟩,
    ⟨vars', params', some ⟨blockParams', blockRet', required'⟩, ret'⟩, h => by
    simp only [signatureToTerm, Term.record.injEq, Term.call.injEq, List.cons.injEq,
      Prod.mk.injEq, Term.list.injEq, true_and, and_true] at h
    obtain ⟨hvars, hparams, ⟨hblockParams, hblockRet, hrequired⟩, hret⟩ := h
    rw [eq_of_term_eq hvars, eq_of_toTerms_eq hparams, eq_of_toTerms_eq hblockParams,
      eq_of_toTerm_eq hblockRet, eq_of_term_eq hrequired, eq_of_toTerm_eq hret]
  | ⟨vars, params, none, ret⟩, ⟨vars', params', some ⟨_, _, _⟩, ret'⟩, h => by
    simp [signatureToTerm] at h
  | ⟨vars, params, some ⟨_, _, _⟩, ret⟩, ⟨vars', params', none, ret'⟩, h => by
    simp [signatureToTerm] at h

end

mutual

theorem wellLabelled_toTerm : ∀ t : TypeExpr, t.toTerm.WellLabelled
  | any => show Term.isIdentifier "Any" = true by decide
  | void => show Term.isIdentifier "Void" = true by decide
  | nil => show Term.isIdentifier "Nil" = true by decide
  | bool => show Term.isIdentifier "Bool" = true by decide
  | selfType => show Term.isIdentifier "SelfType" = true by decide
  | instanceType => show Term.isIdentifier "Instance" = true by decide
  | classType => show Term.isIdentifier "Class" = true by decide
  | var name => ⟨by decide, wellLabelled name⟩
  | named path args =>
    ⟨by decide, by decide, wellLabelled path, by decide, wellLabelledItems_toTerms args, trivial⟩
  | tuple elems => ⟨by decide, wellLabelledItems_toTerms elems⟩
  | union members => ⟨by decide, wellLabelledItems_toTerms members⟩
  | optional inner => ⟨by decide, wellLabelled_toTerm inner⟩
  | proc method => ⟨by decide, wellLabelled_signatureToTerm method⟩

theorem wellLabelledItems_toTerms : ∀ ts : List TypeExpr, Term.WellLabelledItems (toTerms ts)
  | [] => trivial
  | t :: ts => ⟨wellLabelled_toTerm t, wellLabelledItems_toTerms ts⟩

theorem wellLabelled_signatureToTerm :
    ∀ s : Signature TypeExpr, (signatureToTerm s).WellLabelled
  | ⟨vars, params, none, ret⟩ =>
    ⟨by decide, by decide, wellLabelled vars, by decide, wellLabelledItems_toTerms params,
      by decide, (show Term.isIdentifier "None" = true by decide), by decide,
      wellLabelled_toTerm ret, trivial⟩
  | ⟨vars, params, some ⟨blockParams, blockRet, required⟩, ret⟩ =>
    ⟨by decide, by decide, wellLabelled vars, by decide, wellLabelledItems_toTerms params,
      by decide,
      ⟨by decide, by decide, by decide, wellLabelledItems_toTerms blockParams, by decide,
        wellLabelled_toTerm blockRet, by decide, wellLabelled required, trivial⟩,
      by decide, wellLabelled_toTerm ret, trivial⟩

end

end TypeExpr

instance : LawfulDescribable TypeExpr := ⟨TypeExpr.eq_of_toTerm_eq, TypeExpr.wellLabelled_toTerm⟩

instance : LawfulDescribable MethodType :=
  ⟨TypeExpr.eq_of_signatureToTerm_eq, TypeExpr.wellLabelled_signatureToTerm⟩

/-! ## Types show where they end -/

/-- **A type whose values show where they end**, whatever follows them. -/
def SelfDelimiting (α : Type) [Describable α] : Prop :=
  ∀ (a b : α) (r s : List Char), (term a).render ++ r = (term b).render ++ s → a = b ∧ r = s

namespace SelfDelimiting

variable {α : Type} [Describable α]

theorem describe_append_inj (h : SelfDelimiting α) {a b : α} {rest rest' : String} :
    describe a ++ rest = describe b ++ rest' ↔ a = b ∧ rest = rest' := by
  constructor
  · intro heq
    have hlist := congrArg String.toList heq
    rw [toList_describe_append, toList_describe_append] at hlist
    obtain ⟨rfl, hrest⟩ := h a b _ _ hlist
    exact ⟨rfl, String.toList_inj.mp hrest⟩
  · rintro ⟨rfl, rfl⟩
    rfl

/-- No text of a value is the beginning of the text of another one. -/
theorem exists_describe_append_iff (h : SelfDelimiting α) {a b : α} :
    (∃ rest, describe a ++ rest = describe b) ↔ a = b := by
  constructor
  · rintro ⟨rest, heq⟩
    rw [← String.append_empty (s := describe b)] at heq
    exact (h.describe_append_inj.mp heq).1
  · rintro rfl
    exact ⟨"", String.append_empty⟩

end SelfDelimiting

namespace TypeExpr

/-- The words that are types by themselves. -/
def plainHeads : List String := ["Any", "Void", "Nil", "Bool", "SelfType", "Instance", "Class"]

/-- The words that a type with parts begins with. -/
def compoundHeads : List String := ["Var", "Named", "Tuple", "Union", "Optional", "Proc"]

/-- **No word that a type begins with is the beginning of another.** -/
theorem eq_of_prefix_heads : ∀ word ∈ plainHeads ++ compoundHeads,
    ∀ word' ∈ plainHeads ++ compoundHeads, word.toList <+: word'.toList → word = word' := by
  decide

/-- A type is a word by itself, or it begins with a word and has brackets behind it. -/
theorem toTerm_cases (t : TypeExpr) :
    (∃ word ∈ plainHeads, t.toTerm = .word word)
    ∨ ∃ word ∈ compoundHeads, t.toTerm.lead = word.toList ∧ ∀ rest, t.toTerm.EndsBefore rest := by
  cases t with
  | any => exact .inl ⟨"Any", by decide, rfl⟩
  | void => exact .inl ⟨"Void", by decide, rfl⟩
  | nil => exact .inl ⟨"Nil", by decide, rfl⟩
  | bool => exact .inl ⟨"Bool", by decide, rfl⟩
  | selfType => exact .inl ⟨"SelfType", by decide, rfl⟩
  | instanceType => exact .inl ⟨"Instance", by decide, rfl⟩
  | classType => exact .inl ⟨"Class", by decide, rfl⟩
  | var name => exact .inr ⟨"Var", by decide, rfl, fun _ => trivial⟩
  | named path args => exact .inr ⟨"Named", by decide, rfl, fun _ => trivial⟩
  | tuple elems => exact .inr ⟨"Tuple", by decide, rfl, fun _ => trivial⟩
  | union members => exact .inr ⟨"Union", by decide, rfl, fun _ => trivial⟩
  | optional inner => exact .inr ⟨"Optional", by decide, rfl, fun _ => trivial⟩
  | proc method => exact .inr ⟨"Proc", by decide, rfl, fun _ => trivial⟩

/-- Texts that begin with types and are the same begin with the same word. -/
theorem head_eq {t u : TypeExpr} {word word' : String} {r s : List Char}
    (hword : word ∈ plainHeads ++ compoundHeads) (hword' : word' ∈ plainHeads ++ compoundHeads)
    (ht : t.toTerm.lead = word.toList) (hu : u.toTerm.lead = word'.toList)
    (h : t.toTerm.render ++ r = u.toTerm.render ++ s) : word = word' := by
  rw [Term.render_eq, Term.render_eq, ht, hu, List.append_assoc, List.append_assoc] at h
  rcases List.prefix_or_prefix_of_prefix ⟨_, h⟩ ⟨_, rfl⟩ with hprefix | hprefix
  · exact eq_of_prefix_heads word hword word' hword' hprefix
  · exact (eq_of_prefix_heads word' hword' word hword hprefix).symm

/-- **A type shows where it ends**, whatever follows. If it is a word by itself,
this is because of the word, and if not, because of the brackets behind it. -/
theorem selfDelimiting : SelfDelimiting TypeExpr := by
  intro t u r s h
  have hdisjoint : ∀ word ∈ plainHeads, word ∉ compoundHeads := by decide
  have hplain {word : String} (h : word ∈ plainHeads) := List.mem_append_left compoundHeads h
  have hcompound {word : String} (h : word ∈ compoundHeads) := List.mem_append_right plainHeads h
  -- The two begin with the same word, so that they are both bare words or both not.
  rcases toTerm_cases t with ⟨word, hword, ht⟩ | ⟨word, hword, ht, hends⟩
  · rcases toTerm_cases u with ⟨word', hword', hu⟩ | ⟨word', hword', hu, -⟩
    · obtain rfl := head_eq (hplain hword) (hplain hword') (congrArg Term.lead ht)
        (congrArg Term.lead hu) h
      obtain rfl : t = u := eq_of_toTerm_eq (ht.trans hu.symm)
      exact ⟨rfl, List.append_cancel_left h⟩
    · obtain rfl := head_eq (hplain hword) (hcompound hword') (congrArg Term.lead ht) hu h
      exact absurd hword' (hdisjoint _ hword)
  · rcases toTerm_cases u with ⟨word', hword', hu⟩ | ⟨word', -, -, hends'⟩
    · obtain rfl := head_eq (hcompound hword) (hplain hword') ht (congrArg Term.lead hu) h
      exact absurd hword (hdisjoint _ hword')
    · exact eq_of_render_term_append (hends r) (hends' s) h

end TypeExpr

/-- A method type has a brace at its end. -/
theorem Signature.selfDelimiting : SelfDelimiting MethodType := by
  intro m n r s h
  have hends (method : MethodType) (rest : List Char) : (term method).EndsBefore rest := by
    rw [term_methodType]
    trivial
  exact eq_of_render_term_append (hends m r) (hends n s) h

/-! ## Annotations -/

instance : LawfulDescribable DynamicScope where
  eq_of_term_eq {a b} h := by
    cases a <;> cases b
    · rfl
    · exact absurd (Term.word.inj h) (by decide)
    · exact absurd (Term.word.inj h) (by decide)
    · rfl
  wellLabelled
    | .onInstance => show Term.isIdentifier "Instance" = true by decide
    | .onModule => show Term.isIdentifier "Module" = true by decide

instance : LawfulDescribable DynamicName where
  eq_of_term_eq {d e} h := by
    obtain ⟨hname, hscope⟩ := eq_of_record_term_eq h
    cases d; cases e
    exact congr (congrArg DynamicName.mk hname) hscope
  wellLabelled dynamic :=
    ⟨by decide, by decide, wellLabelled dynamic.name, by decide, wellLabelled dynamic.scope,
      trivial⟩

theorem Kind.eq_of_lead_eq : ∀ a ∈ all, ∀ b ∈ all, (term a).lead = (term b).lead → a = b := by
  decide

namespace Annotation

/-- An annotation begins with the word for its kind. -/
theorem lead_term (a : Annotation) : (term a).lead = (term a.kind).lead := by
  cases a <;> rfl

theorem kind_eq_of_term_eq {a b : Annotation} (h : term a = term b) : a.kind = b.kind := by
  refine Kind.eq_of_lead_eq _ (Kind.mem_all _) _ (Kind.mem_all _) ?_
  rw [← lead_term, h, lead_term]

end Annotation

instance : LawfulDescribable Annotation where
  eq_of_term_eq {a b} h := by
    have hkind : a.kind = b.kind := Annotation.kind_eq_of_term_eq h
    cases a with
    | varType name type =>
      cases b with
      | varType name' type' =>
        obtain ⟨rfl, rfl⟩ := eq_of_record_term_eq h
        rfl
      | _ => cases hkind
    | ivarType name type =>
      cases b with
      | ivarType name' type' =>
        obtain ⟨rfl, rfl⟩ := eq_of_record_term_eq h
        rfl
      | _ => cases hkind
    | constType path type =>
      cases b with
      | constType path' type' =>
        obtain ⟨rfl, rfl⟩ := eq_of_record_term_eq h
        rfl
      | _ => cases hkind
    | methodType name type =>
      cases b with
      | methodType name' type' =>
        obtain ⟨rfl, rfl⟩ := eq_of_record_term_eq h
        rfl
      | _ => cases hkind
    | blockType type =>
      cases b with
      | blockType type' => exact congrArg Annotation.blockType (eq_of_call_term_eq h)
      | _ => cases hkind
    | breakType type =>
      cases b with
      | breakType type' => exact congrArg Annotation.breakType (eq_of_call_term_eq h)
      | _ => cases hkind
    | returnType type =>
      cases b with
      | returnType type' => exact congrArg Annotation.returnType (eq_of_call_term_eq h)
      | _ => cases hkind
    | selfType type =>
      cases b with
      | selfType type' => exact congrArg Annotation.selfType (eq_of_call_term_eq h)
      | _ => cases hkind
    | instanceType type =>
      cases b with
      | instanceType type' => exact congrArg Annotation.instanceType (eq_of_call_term_eq h)
      | _ => cases hkind
    | moduleType type =>
      cases b with
      | moduleType type' => exact congrArg Annotation.moduleType (eq_of_call_term_eq h)
      | _ => cases hkind
    | implements path =>
      cases b with
      | implements path' => exact congrArg Annotation.implements (eq_of_call_term_eq h)
      | _ => cases hkind
    | dynamic names =>
      cases b with
      | dynamic names' => exact congrArg Annotation.dynamic (eq_of_call_term_eq h)
      | _ => cases hkind
  wellLabelled
    | .varType name type =>
      ⟨by decide, by decide, wellLabelled name, by decide, wellLabelled type, trivial⟩
    | .ivarType name type =>
      ⟨by decide, by decide, wellLabelled name, by decide, wellLabelled type, trivial⟩
    | .constType path type =>
      ⟨by decide, by decide, wellLabelled path, by decide, wellLabelled type, trivial⟩
    | .methodType name type =>
      ⟨by decide, by decide, wellLabelled name, by decide, wellLabelled type, trivial⟩
    | .blockType type => ⟨by decide, wellLabelled type⟩
    | .breakType type => ⟨by decide, wellLabelled type⟩
    | .returnType type => ⟨by decide, wellLabelled type⟩
    | .selfType type => ⟨by decide, wellLabelled type⟩
    | .instanceType type => ⟨by decide, wellLabelled type⟩
    | .moduleType type => ⟨by decide, wellLabelled type⟩
    | .implements path => ⟨by decide, wellLabelled path⟩
    | .dynamic names => ⟨by decide, wellLabelled names⟩

/-- **What is shown can be told apart.** Two annotations have the same text only if
they are equal, and so it is with types, method types, paths, module contexts and
dynamic names, whatever the numbers of the names in them are. The text of a type or
of a method type shows where it ends, besides: it is not the beginning of the text
of another one, and two texts that begin with one and go on in any way are the same
only if they begin with the same one and go on in the same way. -/
theorem describe_unambiguous :
    (∀ a b : Annotation, describe a = describe b ↔ a = b)
    ∧ (∀ t u : TypeExpr, describe t = describe u ↔ t = u)
    ∧ (∀ m n : MethodType, describe m = describe n ↔ m = n)
    ∧ (∀ p q : QualifiedName, describe p = describe q ↔ p = q)
    ∧ (∀ c d : ModuleContext, describe c = describe d ↔ c = d)
    ∧ (∀ d e : DynamicName, describe d = describe e ↔ d = e)
    ∧ (∀ t u : TypeExpr, (∃ rest, describe t ++ rest = describe u) ↔ t = u)
    ∧ (∀ m n : MethodType, (∃ rest, describe m ++ rest = describe n) ↔ m = n)
    ∧ (∀ (t u : TypeExpr) (rest rest' : String),
      describe t ++ rest = describe u ++ rest' ↔ t = u ∧ rest = rest')
    ∧ ∀ (m n : MethodType) (rest rest' : String),
      describe m ++ rest = describe n ++ rest' ↔ m = n ∧ rest = rest' :=
  ⟨fun _ _ => describe_inj, fun _ _ => describe_inj, fun _ _ => describe_inj,
    fun _ _ => describe_inj, fun _ _ => describe_inj, fun _ _ => describe_inj,
    fun _ _ => TypeExpr.selfDelimiting.exists_describe_append_iff,
    fun _ _ => Signature.selfDelimiting.exists_describe_append_iff,
    fun _ _ _ _ => TypeExpr.selfDelimiting.describe_append_inj,
    fun _ _ _ _ => Signature.selfDelimiting.describe_append_inj⟩

end ScopedAnnotations
