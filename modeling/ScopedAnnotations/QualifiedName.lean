import ScopedAnnotations.Name

/-!
# Qualified names

A *qualified name* is a path such as `Foo::Bar` or `::Foo::Bar`: at least one
segment, written with or without the leading separator that anchors it at the
root. The anchoring is part of the name. `Foo` and `::Foo` have the same
segments and are nevertheless different names, because the first one means
whatever the surrounding module makes of it.

The last segment is stored apart from the ones that qualify it, so that a
path without segments cannot be written down. Nothing is lost by the split:
a qualified name is determined by its segments and its anchoring, and the
order below compares exactly these two.
-/

namespace ScopedAnnotations

/-- A path of at least one segment, relative or anchored at the root. -/
structure QualifiedName where
  /-- Every segment but the last, outermost first. -/
  qualifier : List Name
  /-- The last segment. -/
  name : Name
  /-- Whether the path starts at the root. -/
  absolute : Bool
  deriving DecidableEq, Hashable, Repr

namespace QualifiedName

/-- A single segment, relative: `Foo`. -/
def simple (name : Name) : QualifiedName := ⟨[], name, false⟩

/-- A relative path: `A::B::name`. -/
def relative (qualifier : List Name) (name : Name) : QualifiedName :=
  ⟨qualifier, name, false⟩

/-- A path from the root: `::A::B::name`. -/
def rooted (qualifier : List Name) (name : Name) : QualifiedName :=
  ⟨qualifier, name, true⟩

/-- All segments, outermost first. -/
def segments (path : QualifiedName) : List Name := path.qualifier ++ [path.name]

/-- The same segments, anchored at the root. -/
def toAbsolute (path : QualifiedName) : QualifiedName := { path with absolute := true }

/-- The path one segment further in, anchored as this one is. -/
def child (path : QualifiedName) (name : Name) : QualifiedName :=
  ⟨path.segments, name, path.absolute⟩

/-- The path as it is written: the texts of the segments with `::`
between them, and in front of them as well if the path is absolute. -/
def display (lookUp : Name → String) (path : QualifiedName) : String :=
  (if path.absolute then "::" else "") ++ "::".intercalate (path.segments.map lookUp)

/-! ## Segments and anchoring determine the path -/

theorem segments_ne_nil (path : QualifiedName) : path.segments ≠ [] := by
  simp [segments]

@[simp]
theorem segments_toAbsolute (path : QualifiedName) :
    path.toAbsolute.segments = path.segments := rfl

@[simp]
theorem absolute_toAbsolute (path : QualifiedName) : path.toAbsolute.absolute = true := rfl

@[simp]
theorem segments_child (path : QualifiedName) (name : Name) :
    (path.child name).segments = path.segments ++ [name] := rfl

@[simp]
theorem absolute_child (path : QualifiedName) (name : Name) :
    (path.child name).absolute = path.absolute := rfl

@[simp]
theorem segments_rooted (qualifier : List Name) (name : Name) :
    (rooted qualifier name).segments = qualifier ++ [name] := rfl

/-- Two paths with the same segments and the same anchoring are the same
path. -/
@[ext]
theorem ext {p q : QualifiedName} (hs : p.segments = q.segments)
    (ha : p.absolute = q.absolute) : p = q := by
  cases p; cases q
  -- The last segment of a list that ends in one segment is that segment.
  obtain ⟨hq, hn⟩ := List.append_inj' hs rfl
  simp_all

/-! ## The order of paths

Relative paths come before absolute ones. Among paths anchored alike the
segments are compared from the outside in, and a path comes before the paths
it leads to. -/

instance : Ord QualifiedName :=
  ⟨compareLex (compareOn QualifiedName.absolute) (compareOn QualifiedName.segments)⟩

theorem compare_def (p q : QualifiedName) :
    compare p q = (compare p.absolute q.absolute).then (compare p.segments q.segments) := rfl

instance : Std.TransOrd QualifiedName :=
  inferInstanceAs (Std.TransCmp
    (compareLex (compareOn QualifiedName.absolute) (compareOn QualifiedName.segments)))

instance : Std.LawfulEqOrd QualifiedName where
  eq_of_compare := by
    intro p q h
    rw [compare_def, Ordering.then_eq_eq] at h
    exact ext (Std.LawfulEqCmp.eq_of_compare h.2) (Std.LawfulEqCmp.eq_of_compare h.1)

end QualifiedName

end ScopedAnnotations
