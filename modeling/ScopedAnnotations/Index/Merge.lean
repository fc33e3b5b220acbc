import ScopedAnnotations.Index

/-!
# Annotations of a nested block

Inside a block, the annotations around it remain in force, except for what the
block redeclares and except for those that speak of a block: what was said of
the outer block's own type and of its `break` does not hold of this one, even
where the inner block says nothing about them.

The index of a nested block is made from scratch, out of the annotations
around it that survive, followed by its own. Putting its own last is all that
shadowing takes, as the last annotation filed in a place wins.

Annotations that go by different scopes cannot be mixed. That they do not is
checked before anything else, and if they do there is no index.
-/

namespace ScopedAnnotations.Index

/-- The index of a block nested in `outer`, whose own annotations are
those of `inner`. Refusing is recorded; so is how many annotations of `outer`
are left out, if there are any. -/
def mergeTraced (outer inner : Index) : Traced (Except IndexError Index) :=
  Traced.inside (.merge outer.size inner.size) do
    match outer.scope.checkCompatible inner.scope with
    | .error error =>
      Traced.emit (.rejected error)
      return .error error
    | .ok () =>
      -- What is dropped is only counted; it has no say in the result.
      let (dropped, retained) := outer.annotations.partition Annotation.isBlockScoped
      if dropped ≠ [] then
        Traced.emit (.dropped dropped.length)
      -- Filing starts over, so that what the inner block redeclares comes last.
      let merged ← buildTraced (retained ++ inner.annotations) outer.scope
      return .ok merged

/-- The index of a block nested in `outer`. -/
def merge (outer inner : Index) : Except IndexError Index := (mergeTraced outer inner).value

/-- The annotations that a block nested in this scope inherits. -/
def inherited (outer : Index) : List Annotation :=
  outer.annotations.filter fun a => !a.isBlockScoped

/-- Merging is checking the scopes and then indexing what is inherited
followed by what is new. -/
theorem merge_eq (outer inner : Index) :
    outer.merge inner = (outer.scope.checkCompatible inner.scope).map fun _ =>
      build (outer.inherited ++ inner.annotations) outer.scope := by
  unfold merge mergeTraced inherited
  rw [List.partition_eq_filter_filter]
  -- The two branches of the check; on success, whether anything was dropped
  -- changes the records and not the value.
  cases outer.scope.checkCompatible inner.scope with
  | error e => rfl
  | ok u =>
    simp only [Traced.value_inside, Except.map]
    split <;> rfl

/-- A merge succeeds exactly under one scope, and then in one way. -/
theorem merge_eq_ok_iff {outer inner merged : Index} :
    outer.merge inner = .ok merged
      ↔ outer.scope = inner.scope
        ∧ merged = build (outer.inherited ++ inner.annotations) outer.scope := by
  rw [merge_eq, ← ResolutionScope.checkCompatible_eq_ok_iff]
  cases outer.scope.checkCompatible inner.scope with
  | ok u => simp [Except.map, eq_comm]
  | error e => simp [Except.map]

end ScopedAnnotations.Index
