import ScopedAnnotations.Proofs.Overlay
import ScopedAnnotations.Proofs.Refusal

/-!
# Nested merges do not depend on bracketing

Blocks nest, and the index of an innermost block can be made in many ways: by
merging from the outside in, one block at a time, or by first merging inner
blocks among themselves and putting the result under the outer ones. A
`Bracketing` is one such way. This module says that it does not matter which:
what comes out is decided by the indexes and their order.

The reason is one property of what is inherited. Making an index of a block
drops nothing from the outer annotations that would not be dropped again on
the way further in, and adds nothing that would (`inherited_nested`); so the
annotations inherited from any merge are those inherited from its parts, one
after another. A bracketing's annotations are therefore the inherited ones of
all its indexes but the last, and all of the last (`eval_eq_ok_iff`).
-/

namespace ScopedAnnotations

/-- **A way of merging indexes**: they stand at the leaves, outermost first,
and every other node is one merge. -/
inductive Bracketing where
  /-- An index by itself. -/
  | leaf (index : Index)
  /-- The merge of what two bracketings come to. -/
  | merge (outer inner : Bracketing)

namespace Bracketing

/-- The indexes that are merged, outermost first. -/
def leaves : Bracketing → List Index
  | leaf index => [index]
  | merge outer inner => outer.leaves ++ inner.leaves

/-- Merge as the bracketing says. A merge that is refused ends it all. -/
def eval : Bracketing → Except IndexError Index
  | leaf index => .ok index
  | merge outer inner => do
    let outerIndex ← outer.eval
    let innerIndex ← inner.eval
    outerIndex.merge innerIndex

theorem leaves_ne_nil : ∀ t : Bracketing, t.leaves ≠ []
  | leaf _ => List.cons_ne_nil _ _
  | merge outer _ => List.append_ne_nil_of_left_ne_nil outer.leaves_ne_nil _

/-- The index of the innermost block. -/
def innermost (t : Bracketing) : Index := t.leaves.getLast t.leaves_ne_nil

/-- The indexes of the blocks around the innermost one. -/
def enclosing (t : Bracketing) : List Index := t.leaves.dropLast

/-- The innermost block with those around it. -/
theorem enclosing_append_innermost (t : Bracketing) : t.enclosing ++ [t.innermost] = t.leaves :=
  List.dropLast_concat_getLast t.leaves_ne_nil

theorem innermost_mem_leaves (t : Bracketing) : t.innermost ∈ t.leaves :=
  List.getLast_mem t.leaves_ne_nil

theorem innermost_merge (outer inner : Bracketing) :
    (merge outer inner).innermost = inner.innermost :=
  List.getLast_append_of_ne_nil _ inner.leaves_ne_nil

theorem enclosing_merge (outer inner : Bracketing) :
    (merge outer inner).enclosing = outer.leaves ++ inner.enclosing :=
  List.dropLast_append_of_ne_nil inner.leaves_ne_nil

/-- The annotations in force in the innermost block: inherited from all the
blocks around it, and its own. -/
def annotations (t : Bracketing) : List Annotation :=
  t.enclosing.flatMap Index.inherited ++ t.innermost.annotations

/-- **What a nested block passes on** is what each of the blocks would pass on
by itself. What it inherited is not dropped from again, and what was dropped
does not come back. -/
theorem inherited_nested (t : Bracketing) (scope : ResolutionScope) :
    (Index.build t.annotations scope).inherited = t.leaves.flatMap Index.inherited := by
  have hkept : (t.enclosing.flatMap Index.inherited).filter (fun a => !a.isBlockScoped)
      = t.enclosing.flatMap Index.inherited := by
    rw [List.filter_eq_self]
    intro a ha
    obtain ⟨i, -, hai⟩ := List.mem_flatMap.mp ha
    exact (List.mem_filter.mp hai).2
  rw [← t.enclosing_append_innermost, List.flatMap_append, List.flatMap_singleton]
  show (t.enclosing.flatMap Index.inherited ++ t.innermost.annotations).filter _ = _
  rw [List.filter_append, hkept]
  rfl

/-- A merge of two bracketings comes to the merge of what they come to. -/
theorem eval_merge_eq_ok_iff {outer inner : Bracketing} {merged : Index} :
    (merge outer inner).eval = .ok merged
      ↔ ∃ o i, outer.eval = .ok o ∧ inner.eval = .ok i ∧ o.merge i = .ok merged := by
  rw [eval, bind_eq_ok_iff]
  constructor
  · rintro ⟨o, ho, h⟩
    obtain ⟨i, hi, h⟩ := bind_eq_ok_iff.mp h
    exact ⟨o, i, ho, hi, h⟩
  · rintro ⟨o, i, ho, hi, h⟩
    exact ⟨o, ho, bind_eq_ok_iff.mpr ⟨i, hi, h⟩⟩

/-- All the indexes of a bracketing go by the scope of the innermost one. -/
def SameScope (t : Bracketing) : Prop := ∀ i ∈ t.leaves, i.scope = t.innermost.scope

theorem sameScope_merge_iff {outer inner : Bracketing} :
    (merge outer inner).SameScope
      ↔ outer.SameScope ∧ inner.SameScope ∧ outer.innermost.scope = inner.innermost.scope := by
  unfold SameScope
  rw [innermost_merge, leaves, List.forall_mem_append]
  constructor
  · rintro ⟨ho, hi⟩
    have hscope := ho _ outer.innermost_mem_leaves
    exact ⟨fun i hmem => (ho i hmem).trans hscope.symm, hi, hscope⟩
  · rintro ⟨ho, hi, hscope⟩
    exact ⟨fun i hmem => (ho i hmem).trans hscope, hi⟩

/-- **What a bracketing comes to is decided by its leaves.** It succeeds
exactly if they all go by one scope, and the index it then makes is that of
the annotations in force in the innermost block. -/
theorem eval_eq_ok_iff {t : Bracketing} {merged : Index} :
    t.eval = .ok merged
      ↔ t.SameScope ∧ merged = Index.build t.annotations t.innermost.scope := by
  induction t generalizing merged with
  | leaf index =>
    have hbuild : Index.build (leaf index).annotations (leaf index).innermost.scope = index :=
      index.build_annotations_scope
    rw [hbuild, eval, Except.ok.injEq, eq_comm]
    exact (and_iff_right (fun i hi => by rw [List.mem_singleton.mp hi]; rfl)).symm
  | merge outer inner ihOuter ihInner =>
    -- What is inherited from the outer result, followed by the inner one's.
    have happend : (merge outer inner).annotations
        = (Index.build outer.annotations outer.innermost.scope).inherited
          ++ inner.annotations := by
      rw [inherited_nested]
      unfold annotations
      rw [enclosing_merge, innermost_merge, List.flatMap_append, List.append_assoc]
    rw [eval_merge_eq_ok_iff, sameScope_merge_iff, innermost_merge, happend]
    constructor
    · rintro ⟨o, i, ho, hi, hmerge⟩
      obtain ⟨hso, rfl⟩ := ihOuter.mp ho
      obtain ⟨hsi, rfl⟩ := ihInner.mp hi
      obtain ⟨hscope, rfl⟩ := Index.merge_eq_ok_iff.mp hmerge
      exact ⟨⟨hso, hsi, hscope⟩, congrArg _ hscope⟩
    · rintro ⟨⟨hso, hsi, hscope⟩, rfl⟩
      exact ⟨_, _, ihOuter.mpr ⟨hso, rfl⟩, ihInner.mpr ⟨hsi, rfl⟩,
        Index.merge_eq_ok_iff.mpr ⟨hscope, congrArg _ hscope.symm⟩⟩

/-! ## What a bracketing answers -/

/-- Several blocks together say at a place what the innermost of them that
says anything says there. -/
theorem lastContent?_flatMap_inherited (is : List Index) (place : Place) :
    lastContent? (is.flatMap Index.inherited) place
      = if place.isBlockScoped then none
        else is.reverse.findSome? fun i => i.content? place := by
  induction is with
  | nil => exact (ite_self none).symm
  | cons i is ih =>
    rw [List.flatMap_cons, lastContent?_append, ih, Index.inherited,
      lastContent?_filter_not_isBlockScoped, ← Index.content?_eq_lastContent?]
    by_cases hp : place.isBlockScoped = true
    · rw [if_pos hp, if_pos hp, if_pos hp]
      rfl
    · rw [if_neg hp, if_neg hp, if_neg hp, List.reverse_cons, List.findSome?_append]
      rw [List.findSome?_singleton]

/-- **The innermost block that says anything is heard**, except that of itself
only the innermost block speaks. -/
theorem content?_build_annotations (t : Bracketing) (scope : ResolutionScope) (place : Place) :
    (Index.build t.annotations scope).content? place
      = if place.isBlockScoped then t.innermost.content? place
        else t.leaves.reverse.findSome? fun i => i.content? place := by
  rw [Index.content?_eq_lastContent?, Index.annotations_build, annotations, lastContent?_append,
    lastContent?_flatMap_inherited, ← Index.content?_eq_lastContent?]
  by_cases hp : place.isBlockScoped = true
  · rw [if_pos hp, if_pos hp, Option.or_none]
  · rw [if_neg hp, if_neg hp, ← t.enclosing_append_innermost, List.reverse_append,
      List.reverse_singleton, List.findSome?_append, List.findSome?_singleton]

variable {τ μ : Type}

/-- What is heard of the blocks is answered alike, as they all go by one
scope. -/
theorem answer?_build_annotations (R : Resolvers Id τ μ) {t : Bracketing} (hscope : t.SameScope)
    (place : Place) :
    ((Index.build t.annotations t.innermost.scope).answer? R place).run
      = if place.isBlockScoped then (t.innermost.answer? R place).run
        else t.leaves.reverse.findSome? fun i => (i.answer? R place).run := by
  rw [Index.answer?_eq_map, content?_build_annotations, Index.scope_build]
  by_cases hp : place.isBlockScoped = true
  · rw [if_pos hp, if_pos hp, Index.answer?_eq_map]
  · rw [if_neg hp, if_neg hp]
    show Option.map _ _ = _
    rw [List.map_findSome?, ← List.head?_filterMap, ← List.head?_filterMap]
    refine congrArg List.head? (List.filterMap_congr (fun i hi => ?_))
    rw [Index.answer?_eq_map, hscope i (List.mem_reverse.mp hi)]
    rfl

/-- **Bracketing does not matter.** Merging the same indexes in the same order
succeeds or fails alike however the merges are bracketed: it succeeds exactly
if the indexes go by the same scope. When it does, every bracketing comes to
one and the same index. That index has the annotations inherited from all the
indexes but the last, followed by all of the last, and it goes by their scope.
What is said of a block is what the last index says, and any other look-up is
answered by the last index that has an answer. -/
theorem eval_bracketing (R : Resolvers Id τ μ) (t : Bracketing) :
    ((∃ merged, t.eval = .ok merged)
      ↔ ∀ i ∈ t.leaves, ∀ j ∈ t.leaves, i.scope.sameAs j.scope = true)
    ∧ ∀ merged, t.eval = .ok merged →
      merged.annotations
        = t.enclosing.flatMap (fun i => i.annotations.filter fun a => !a.isBlockScoped)
          ++ t.innermost.annotations
      ∧ (∀ i ∈ t.leaves, merged.scope.sameAs i.scope = true)
      ∧ (∀ t' : Bracketing, t'.leaves = t.leaves → t'.eval = .ok merged)
      ∧ (∀ place ∈ [Place.slot .blockType, .slot .breakType],
        merged.content? place = t.innermost.content? place
        ∧ (merged.answer? R place).run = (t.innermost.answer? R place).run)
      ∧ (∀ place ∉ [Place.slot .blockType, .slot .breakType],
        merged.content? place = t.leaves.reverse.findSome? (fun i => i.content? place)
        ∧ (merged.answer? R place).run
          = t.leaves.reverse.findSome? fun i => (i.answer? R place).run) := by
  constructor
  · constructor
    · rintro ⟨merged, h⟩ i hi j hj
      have hscope := (eval_eq_ok_iff.mp h).1
      exact ResolutionScope.sameAs_iff.mpr ((hscope i hi).trans (hscope j hj).symm)
    · intro h
      refine ⟨_, eval_eq_ok_iff.mpr ⟨fun i hi => ?_, rfl⟩⟩
      exact ResolutionScope.sameAs_iff.mp (h i hi _ t.innermost_mem_leaves)
  · intro merged h
    obtain ⟨hscope, rfl⟩ := eval_eq_ok_iff.mp h
    refine ⟨rfl, fun i hi => ?_, fun t' ht' => ?_, fun place hplace => ?_, fun place hplace => ?_⟩
    · exact ResolutionScope.sameAs_iff.mpr (hscope i hi).symm
    · -- All that counts in a bracketing is read off its leaves.
      have hinner : t'.innermost = t.innermost := by
        unfold innermost
        simp only [ht']
      have hann : t'.annotations = t.annotations := by
        unfold annotations enclosing
        rw [ht', hinner]
      refine eval_eq_ok_iff.mpr ⟨?_, by rw [hann, hinner]⟩
      unfold SameScope
      rw [ht', hinner]
      exact hscope
    · have hp := Place.isBlockScoped_iff.mpr hplace
      rw [content?_build_annotations, answer?_build_annotations R hscope, if_pos hp, if_pos hp]
      exact ⟨rfl, rfl⟩
    · have hp := fun hb => hplace (Place.isBlockScoped_iff.mp hb)
      rw [content?_build_annotations, answer?_build_annotations R hscope, if_neg hp, if_neg hp]
      exact ⟨rfl, rfl⟩

end Bracketing

end ScopedAnnotations
