import ScopedAnnotations.Classified
import ScopedAnnotations.Trace

/-!
# Annotation indexes

An *index* is what one scope's annotations come to: the annotations in the
order they were written, the resolution scope they go by, and the same
annotations sorted into places. It is made once and then only read.

The sorted form is stored so that it need not be made again, and it is no
second source of truth: an index carries the fact that its places hold what
filing its annotations puts there. Two indexes with the same annotations and
the same scope are therefore the same index.
-/

namespace ScopedAnnotations

/-- File one annotation and record it. -/
def Classified.fileTraced (classified : Classified) (a : Annotation) : Traced Classified := do
  Traced.emit (.classified a.kind)
  return classified.file a

/-- File annotations from left to right, recording each. -/
def Classified.fileAllTraced (classified : Classified) :
    List Annotation → Traced Classified
  | [] => return classified
  | a :: as => do
    let classified ← classified.fileTraced a
    classified.fileAllTraced as

@[simp]
theorem Classified.value_fileAllTraced (classified : Classified) (as : List Annotation) :
    (classified.fileAllTraced as).value = classified.fileAll as := by
  induction as generalizing classified with
  | nil => rfl
  | cons a as ih => simp [fileAllTraced, fileTraced, ih]

/-- Filing records the kind of every annotation, in order. -/
@[simp]
theorem Classified.records_fileAllTraced (classified : Classified) (as : List Annotation) :
    (classified.fileAllTraced as).records
      = as.map fun a => ⟨[], .event (.classified a.kind)⟩ := by
  induction as generalizing classified with
  | nil => rfl
  | cons a as ih => simp [fileAllTraced, fileTraced, ih]

/-- One scope's annotations, ready for look-ups. -/
structure Index where
  /-- The annotations, in the order they were written. -/
  annotations : List Annotation
  /-- The resolver and the module context they go by. -/
  scope : ResolutionScope
  /-- The annotations, sorted into places. -/
  classified : Classified
  /-- The places hold what the annotations put there. -/
  classified_eq : classified = .ofList annotations

namespace Index

@[ext]
theorem ext {i j : Index} (ha : i.annotations = j.annotations) (hs : i.scope = j.scope) :
    i = j := by
  obtain ⟨as, s, c, rfl⟩ := i
  obtain ⟨bs, t, d, rfl⟩ := j
  cases ha; cases hs
  rfl

/-- Make an index. Every annotation is filed in order and recorded, and at
the end how many there were. No resolver is asked anything. -/
def buildTraced (annotations : List Annotation) (scope : ResolutionScope) : Traced Index :=
  Traced.inside .build do
    let ⟨classified, h⟩ ← (Classified.empty.fileAllTraced annotations).attach
    Traced.emit (.indexed annotations.length)
    return ⟨annotations, scope, classified, by simp [h, Classified.ofList]⟩

/-- The index of a list of annotations. -/
def build (annotations : List Annotation) (scope : ResolutionScope) : Index :=
  (buildTraced annotations scope).value

/-- How many annotations there are, shadowed ones included. -/
def size (index : Index) : Nat := index.annotations.length

/-- Whether there is no annotation. -/
def isEmpty (index : Index) : Bool := index.annotations.isEmpty

/-- Whether an annotation was among those the index was made from, shadowed or
not. -/
def contains (index : Index) (a : Annotation) : Bool := decide (a ∈ index.annotations)

/-- Whether a predicate holds of some annotation. The annotations are tried in
order, and none is tried after the first of which it holds. -/
def anyM {m : Type → Type} [Monad m] (index : Index) (p : Annotation → m Bool) : m Bool :=
  index.annotations.anyM p

/-- Whether a predicate holds of some annotation. -/
def any (index : Index) (p : Annotation → Bool) : Bool := index.annotations.any p

/-- The kinds of the annotations, in order. -/
def kinds (index : Index) : List Kind := index.annotations.map Annotation.kind

@[simp]
theorem annotations_build (as : List Annotation) (scope : ResolutionScope) :
    (build as scope).annotations = as := rfl

@[simp]
theorem scope_build (as : List Annotation) (scope : ResolutionScope) :
    (build as scope).scope = scope := rfl

@[simp]
theorem classified_build (as : List Annotation) (scope : ResolutionScope) :
    (build as scope).classified = .ofList as := (build as scope).classified_eq

/-- Every index is made from its annotations and its scope. -/
theorem build_annotations_scope (index : Index) :
    build index.annotations index.scope = index := by
  ext1 <;> rfl

instance : Inhabited Index := ⟨build [] ⟨⟨0⟩, .root⟩⟩

instance : DecidableEq Index := fun i j =>
  decidable_of_iff (i.annotations = j.annotations ∧ i.scope = j.scope)
    ⟨fun h => Index.ext h.1 h.2, by rintro rfl; exact ⟨rfl, rfl⟩⟩

end Index

/-- The index of a list of annotations under this scope. -/
def ResolutionScope.build (scope : ResolutionScope) (annotations : List Annotation) : Index :=
  Index.build annotations scope

instance : Describable Index where
  term index := .record "AnnotationIndex"
    [("annotations", term index.annotations), ("scope", term index.scope)] true

end ScopedAnnotations
