import Mathlib.Logic.Relation
import ScopedAnnotations.Proofs.Place

/-!
# When two lists come to the same

An index shows the winner of every place and the dynamic declarations in
order, and keeps the rest to itself. So some changes to a list of annotations
cannot be seen: two neighbours about different places may change places, and an
annotation may come or go if a later one is about the same place and it is not
a dynamic declaration. This module says that there are no others. Two lists are
shown alike exactly if one can be turned into the other by such steps
(`Index.build_sameExpressions_iff`).

That the steps cannot be seen is looked up step by step. The converse needs a
way from any list to any other that is shown alike, and it leads through lists
in which nothing is shadowed. Deleting what is shadowed leaves, of the
annotations about a place, the winner alone
(`annotationsAbout_unshadowed_some`), so two lists that are shown alike have
the same annotations left about every place, in the same order. Such lists
differ only in how the annotations about different places are interleaved, and
swapping neighbours undoes that (`Rearrangement.of_annotationsAbout_eq`).
-/

namespace ScopedAnnotations

/-- **An annotation is shadowed** by those after it: it is about a place, and
so is a later one. -/
def Annotation.Shadowed (a : Annotation) (later : List Annotation) : Prop :=
  a.place? ≠ none ∧ ∃ b ∈ later, b.place? = a.place?

/-- **One change that cannot be seen.** -/
inductive Rearrangement.Step : List Annotation → List Annotation → Prop where
  /-- Two neighbours about different places change places. -/
  | swap (before after : List Annotation) {a b : Annotation} (different : a.place? ≠ b.place?) :
    Step (before ++ a :: b :: after) (before ++ b :: a :: after)
  /-- A shadowed annotation goes. -/
  | delete (before later : List Annotation) {a : Annotation} (shadowed : a.Shadowed later) :
    Step (before ++ a :: later) (before ++ later)
  /-- A shadowed annotation comes. -/
  | insert (before later : List Annotation) {a : Annotation} (shadowed : a.Shadowed later) :
    Step (before ++ later) (before ++ a :: later)

/-- **One list can be turned into another** by changes that cannot be seen. -/
abbrev Rearrangement : List Annotation → List Annotation → Prop :=
  Relation.ReflTransGen Rearrangement.Step

/-! ## No step can be seen -/

/-- What two neighbours say at a place does not depend on their order, as only
one of them is about it. -/
theorem lastContent?_swap {a b : Annotation} (different : a.place? ≠ b.place?)
    (after : List Annotation) (place : Place) :
    lastContent? (a :: b :: after) place = lastContent? (b :: a :: after) place := by
  rw [lastContent?_cons, lastContent?_cons, lastContent?_cons, lastContent?_cons]
  by_cases ha : a.place? = some place
  · have hb := Annotation.content?_eq_none_iff_place?.mpr (fun h => different (ha.trans h.symm))
    rw [hb, Option.or_none, Option.or_none]
  · have ha := Annotation.content?_eq_none_iff_place?.mpr ha
    rw [ha, Option.or_none, Option.or_none]

/-- A shadowed annotation has no say anywhere. -/
theorem lastContent?_cons_of_shadowed {a : Annotation} {later : List Annotation}
    (shadowed : a.Shadowed later) (place : Place) :
    lastContent? (a :: later) place = lastContent? later place := by
  rw [lastContent?_cons]
  by_cases ha : a.place? = some place
  · -- A later annotation about the same place has the last word.
    obtain ⟨-, b, hb, hsame⟩ := shadowed
    obtain ⟨content, rfl⟩ := Annotation.place?_eq_some_iff.mp (hsame.trans ha)
    have hsaid : lastContent? later place ≠ none :=
      fun h => lastContent?_eq_none_iff.mp h content hb
    exact Option.or_of_isSome (Option.isSome_iff_ne_none.mpr hsaid)
  · have ha := Annotation.content?_eq_none_iff_place?.mpr ha
    rw [ha, Option.or_none]

theorem dynamics_cons_of_shadowed {a : Annotation} {later : List Annotation}
    (shadowed : a.Shadowed later) :
    (a :: later).filterMap Annotation.dynamicNames?
      = later.filterMap Annotation.dynamicNames? := by
  have ha := Annotation.dynamicNames?_eq_none_iff.mpr shadowed.1
  rw [List.filterMap_cons_none ha]

theorem dynamics_swap {a b : Annotation} (different : a.place? ≠ b.place?)
    (after : List Annotation) :
    (a :: b :: after).filterMap Annotation.dynamicNames?
      = (b :: a :: after).filterMap Annotation.dynamicNames? := by
  by_cases ha : a.place? = none
  · have hb := Annotation.dynamicNames?_eq_none_iff.mpr (fun h => different (ha.trans h.symm))
    rw [List.filterMap_cons, List.filterMap_cons_none hb, List.filterMap_cons_none hb,
      List.filterMap_cons]
  · have ha := Annotation.dynamicNames?_eq_none_iff.mpr ha
    rw [List.filterMap_cons_none ha, List.filterMap_cons, List.filterMap_cons,
      List.filterMap_cons_none ha]

/-- **Two lists are shown alike**: they have the same last word at every place,
and the same dynamic declarations in the same order. -/
def ShownAlike (xs ys : List Annotation) : Prop :=
  (∀ place, lastContent? xs place = lastContent? ys place)
    ∧ xs.filterMap Annotation.dynamicNames? = ys.filterMap Annotation.dynamicNames?

namespace ShownAlike

variable {xs ys zs : List Annotation}

theorem symm (h : ShownAlike xs ys) : ShownAlike ys xs :=
  ⟨fun place => (h.1 place).symm, h.2.symm⟩

theorem trans (h : ShownAlike xs ys) (h' : ShownAlike ys zs) : ShownAlike xs zs :=
  ⟨fun place => (h.1 place).trans (h'.1 place), h.2.trans h'.2⟩

theorem append_left (h : ShownAlike xs ys) (before : List Annotation) :
    ShownAlike (before ++ xs) (before ++ ys) := by
  refine ⟨fun place => ?_, ?_⟩
  · rw [lastContent?_append, lastContent?_append, h.1 place]
  · rw [List.filterMap_append, List.filterMap_append, h.2]

theorem of_shadowed {a : Annotation} {later : List Annotation} (shadowed : a.Shadowed later) :
    ShownAlike (a :: later) later :=
  ⟨lastContent?_cons_of_shadowed shadowed, dynamics_cons_of_shadowed shadowed⟩

/-- **A step cannot be seen.** -/
theorem of_step (step : Rearrangement.Step xs ys) : ShownAlike xs ys := by
  cases step with
  | swap before after different =>
    exact append_left ⟨lastContent?_swap different after, dynamics_swap different after⟩ before
  | delete before later shadowed => exact (of_shadowed shadowed).append_left before
  | insert before later shadowed => exact (of_shadowed shadowed).symm.append_left before

/-- Nor can any number of steps. -/
theorem of_rearrangement (h : Rearrangement xs ys) : ShownAlike xs ys := by
  induction h with
  | refl => exact ⟨fun _ => rfl, rfl⟩
  | tail _ step ih => exact ih.trans (of_step step)

end ShownAlike

/-! ## Rearranging -/

namespace Rearrangement

variable {xs ys : List Annotation}

theorem Step.symm (step : Step xs ys) : Step ys xs := by
  cases step with
  | swap before after different => exact .swap before after different.symm
  | delete before later shadowed => exact .insert before later shadowed
  | insert before later shadowed => exact .delete before later shadowed

theorem Step.cons (step : Step xs ys) (a : Annotation) : Step (a :: xs) (a :: ys) := by
  cases step with
  | swap before after different => exact .swap (a :: before) after different
  | delete before later shadowed => exact .delete (a :: before) later shadowed
  | insert before later shadowed => exact .insert (a :: before) later shadowed

theorem cons (h : Rearrangement xs ys) (a : Annotation) : Rearrangement (a :: xs) (a :: ys) :=
  h.lift (List.cons a) (fun _ _ step => step.cons a)

protected theorem symm (h : Rearrangement xs ys) : Rearrangement ys xs := by
  induction h with
  | refl => exact .refl
  | tail _ step ih => exact .head step.symm ih

/-- **An annotation can be brought to the front** past annotations about other
places. -/
theorem to_front {a : Annotation} {before : List Annotation}
    (different : ∀ b ∈ before, b.place? ≠ a.place?) (after : List Annotation) :
    Rearrangement (before ++ a :: after) (a :: (before ++ after)) := by
  induction before with
  | nil => exact .refl
  | cons b before ih =>
    have hrest := ih (fun c hc => different c (List.mem_cons_of_mem b hc))
    exact (hrest.cons b).tail (.swap [] (before ++ after) (different b List.mem_cons_self))

end Rearrangement

/-! ## The annotations about one place

A list is looked at one place at a time. The dynamic declarations, which are
about none, are looked at together. -/

/-- The annotations about a place, in order. -/
def annotationsAbout (place? : Option Place) (as : List Annotation) : List Annotation :=
  as.filter fun a => a.place? = place?

section AnnotationsAbout

variable {place? : Option Place} {a : Annotation}

theorem annotationsAbout_cons_of_eq (h : a.place? = place?) (as : List Annotation) :
    annotationsAbout place? (a :: as) = a :: annotationsAbout place? as :=
  List.filter_cons_of_pos (decide_eq_true h)

theorem annotationsAbout_cons_of_ne (h : a.place? ≠ place?) (as : List Annotation) :
    annotationsAbout place? (a :: as) = annotationsAbout place? as :=
  List.filter_cons_of_neg (fun hdec => h (of_decide_eq_true hdec))

theorem annotationsAbout_append (as bs : List Annotation) :
    annotationsAbout place? (as ++ bs) = annotationsAbout place? as ++ annotationsAbout place? bs :=
  List.filter_append as bs

theorem annotationsAbout_eq_nil_iff {as : List Annotation} :
    annotationsAbout place? as = [] ↔ ∀ b ∈ as, b.place? ≠ place? :=
  List.filter_eq_nil_iff.trans (forall₂_congr (fun _ _ => not_congr decide_eq_true_iff))

/-- If there are any, there is a first one, and those before it are about other
places. -/
theorem exists_of_annotationsAbout_eq_cons {as rest : List Annotation}
    (h : annotationsAbout place? as = a :: rest) :
    ∃ before after, as = before ++ a :: after ∧ a.place? = place?
      ∧ ∀ b ∈ before, b.place? ≠ place? := by
  obtain ⟨before, after, rfl, hbefore, ha, -⟩ := List.filter_eq_cons_iff.mp h
  exact ⟨before, after, rfl, of_decide_eq_true ha,
    fun b hb hplace => hbefore b hb (decide_eq_true hplace)⟩

end AnnotationsAbout

/-- **Lists that differ only across places** can be turned into each other by
swapping neighbours. -/
theorem Rearrangement.of_annotationsAbout_eq {xs ys : List Annotation}
    (h : ∀ place?, annotationsAbout place? xs = annotationsAbout place? ys) :
    Rearrangement xs ys := by
  induction xs generalizing ys with
  | nil =>
    have hnil : ys = [] := List.eq_nil_iff_forall_not_mem.mpr
      (fun b hb => annotationsAbout_eq_nil_iff.mp (h b.place?).symm b hb rfl)
    rw [hnil]
  | cons a xs ih =>
    -- The first annotation about its place is the same in both lists.
    have hhead := (h a.place?).symm
    rw [annotationsAbout_cons_of_eq rfl] at hhead
    obtain ⟨before, after, rfl, -, hbefore⟩ := exists_of_annotationsAbout_eq_cons hhead
    have hrest : Rearrangement xs (before ++ after) := by
      refine ih (fun place? => ?_)
      -- Without it the lists still agree, about its place and about any other.
      have hplace := h place?
      rw [annotationsAbout_append] at hplace ⊢
      by_cases ha : a.place? = place?
      · have hnone := annotationsAbout_eq_nil_iff.mpr (ha ▸ hbefore)
        rw [annotationsAbout_cons_of_eq ha, annotationsAbout_cons_of_eq ha, hnone] at hplace
        rw [hnone]
        exact (List.cons.inj hplace).2
      · rw [annotationsAbout_cons_of_ne ha, annotationsAbout_cons_of_ne ha] at hplace
        exact hplace
    exact (hrest.cons a).trans (to_front hbefore after).symm

/-! ## Deleting what is shadowed -/

instance (a : Annotation) (later : List Annotation) : Decidable (a.Shadowed later) :=
  inferInstanceAs (Decidable (_ ∧ _))

/-- The annotations that nothing after them shadows. -/
def unshadowed : List Annotation → List Annotation
  | [] => []
  | a :: as => if a.Shadowed as then unshadowed as else a :: unshadowed as

/-- What is shadowed can be deleted step by step. -/
theorem rearrangement_unshadowed (as : List Annotation) : Rearrangement as (unshadowed as) := by
  induction as with
  | nil => exact .refl
  | cons a as ih =>
    rw [unshadowed]
    by_cases hshadowed : a.Shadowed as
    · rw [if_pos hshadowed]
      exact Relation.ReflTransGen.head (.delete [] as hshadowed) ih
    · rw [if_neg hshadowed]
      exact ih.cons a

/-- **Of the annotations about a place the winner is left**, and it is the last
of them. -/
theorem annotationsAbout_unshadowed_some (as : List Annotation) (place : Place) :
    annotationsAbout (some place) (unshadowed as)
      = ((lastContent? as place).map place.annotation).toList := by
  induction as with
  | nil => rfl
  | cons a as ih =>
    rw [unshadowed]
    by_cases hshadowed : a.Shadowed as
    · rw [if_pos hshadowed, ih, lastContent?_cons_of_shadowed hshadowed]
    · rw [if_neg hshadowed, lastContent?_cons]
      by_cases ha : a.place? = some place
      · -- Nothing later is about the place, so the annotation is the only one left.
        obtain ⟨content, rfl⟩ := Annotation.place?_eq_some_iff.mp ha
        have hlater : lastContent? as place = none := by
          refine lastContent?_eq_none_iff.mpr (fun other hother => hshadowed ⟨?_, _, hother, ?_⟩)
          · rw [ha]
            exact Option.some_ne_none place
          · rw [ha]
            exact Annotation.place?_eq_some_iff.mpr ⟨other, rfl⟩
        rw [annotationsAbout_cons_of_eq ha, ih, hlater, Option.none_or,
          Annotation.content?_annotation]
        rfl
      · rw [annotationsAbout_cons_of_ne ha, ih,
          Annotation.content?_eq_none_iff_place?.mpr ha, Option.or_none]

/-- All the dynamic declarations are left. -/
theorem annotationsAbout_unshadowed_none (as : List Annotation) :
    annotationsAbout none (unshadowed as)
      = (as.filterMap Annotation.dynamicNames?).map .dynamic := by
  induction as with
  | nil => rfl
  | cons a as ih =>
    rw [unshadowed]
    by_cases hshadowed : a.Shadowed as
    · rw [if_pos hshadowed, ih, dynamics_cons_of_shadowed hshadowed]
    · rw [if_neg hshadowed]
      by_cases ha : a.place? = none
      · obtain ⟨names, rfl⟩ := Annotation.place?_eq_none_iff.mp ha
        rw [annotationsAbout_cons_of_eq ha, ih]
        rfl
      · have hnames := Annotation.dynamicNames?_eq_none_iff.mpr ha
        rw [annotationsAbout_cons_of_ne ha, ih, List.filterMap_cons_none hnames]

/-- **Lists that are shown alike can be turned into each other.** -/
theorem ShownAlike.rearrangement {xs ys : List Annotation} (h : ShownAlike xs ys) :
    Rearrangement xs ys := by
  have hmiddle : Rearrangement (unshadowed xs) (unshadowed ys) := by
    refine Rearrangement.of_annotationsAbout_eq (fun place? => ?_)
    cases place? with
    | none => rw [annotationsAbout_unshadowed_none, annotationsAbout_unshadowed_none, h.2]
    | some place =>
      rw [annotationsAbout_unshadowed_some, annotationsAbout_unshadowed_some, h.1 place]
  exact (rearrangement_unshadowed xs).trans (hmiddle.trans (rearrangement_unshadowed ys).symm)

namespace Index

/-- **Two indexes show the same expressions**, for every variable and constant,
every method, every slot, the module being implemented, and the dynamic
declarations. -/
structure SameExpressions (i j : Index) : Prop where
  variableExpr : ∀ ref, i.variableExpr ref = j.variableExpr ref
  methodExpr : ∀ name, i.methodExpr name = j.methodExpr name
  slotExpr : ∀ slot, i.slotExpr slot = j.slotExpr slot
  implementedModule : i.implementedModule = j.implementedModule
  dynamicDeclarations : i.dynamicDeclarations = j.dynamicDeclarations

/-- What indexes show is what their annotations show. -/
theorem sameExpressions_iff_shownAlike {i j : Index} :
    i.SameExpressions j ↔ ShownAlike i.annotations j.annotations := by
  constructor
  · intro h
    refine ⟨fun place => ?_, ?_⟩
    · rw [← content?_eq_lastContent?, ← content?_eq_lastContent?]
      cases place with
      | ref r => exact h.variableExpr r
      | method name => exact h.methodExpr name
      | slot s => exact h.slotExpr s
      | implements => exact h.implementedModule
    · rw [← dynamicDeclarations_eq, ← dynamicDeclarations_eq, h.dynamicDeclarations]
  · intro h
    have hcontent (place : Place) : i.content? place = j.content? place := by
      rw [content?_eq_lastContent?, content?_eq_lastContent?, h.1 place]
    exact
      { variableExpr := fun r => hcontent (.ref r)
        methodExpr := fun name => hcontent (.method name)
        slotExpr := fun s => hcontent (.slot s)
        implementedModule := hcontent .implements
        dynamicDeclarations := by rw [dynamicDeclarations_eq, dynamicDeclarations_eq, h.2] }

/-- **What cannot be seen in an index.** Under one scope, the indexes of two
lists show the same expressions exactly if one list can be turned into the
other by finitely many steps, in each of which two neighbours about different
places change places, or an annotation comes or goes that is not a dynamic
declaration and that a later one about the same place shadows. -/
theorem build_sameExpressions_iff (xs ys : List Annotation) (scope : ResolutionScope) :
    (build xs scope).SameExpressions (build ys scope) ↔ Rearrangement xs ys :=
  sameExpressions_iff_shownAlike.trans
    ⟨ShownAlike.rearrangement, ShownAlike.of_rearrangement⟩

end Index

end ScopedAnnotations
