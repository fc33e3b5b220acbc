import Std.Data.ExtTreeMap
import ScopedAnnotations.Annotation

/-!
# Classified annotations

A flat list of annotations is sorted into places once, so that looking
something up later does not walk the list. Every annotation has one place, and
its kind and its key say which: a key of one of four maps, one of seven slots,
or the end of the list of dynamic declarations.

Where a place holds one answer, the last annotation filed there wins, and
nothing remembers the ones before it. Dynamic declarations never displace each
other; each is kept as the list it was written as, the empty list included.
-/

namespace ScopedAnnotations

/-- The questions about a scope as a whole that are answered by a type. -/
inductive TypeSlot where
  | blockType
  | breakType
  | returnType
  | selfType
  | instanceType
  | moduleType
  deriving DecidableEq, Repr

/-- Annotations sorted into the places they are about. -/
@[ext]
structure Classified where
  varTypes : Std.ExtTreeMap Name TypeExpr := ∅
  ivarTypes : Std.ExtTreeMap Name TypeExpr := ∅
  /-- Constants, by the path as written. -/
  constTypes : Std.ExtTreeMap QualifiedName TypeExpr := ∅
  methodTypes : Std.ExtTreeMap Name MethodType := ∅
  blockType : Option TypeExpr := none
  breakType : Option TypeExpr := none
  returnType : Option TypeExpr := none
  selfType : Option TypeExpr := none
  instanceType : Option TypeExpr := none
  moduleType : Option TypeExpr := none
  /-- The module being implemented. -/
  implements : Option QualifiedName := none
  /-- Every dynamic declaration, in the order they were filed. -/
  dynamics : Array (List DynamicName) := #[]

namespace Classified

/-- Nothing filed. -/
def empty : Classified := {}

instance : Inhabited Classified := ⟨empty⟩

/-- File one annotation in its place, in place of whatever was there. -/
def file (classified : Classified) : Annotation → Classified
  | .varType name type =>
    { classified with varTypes := classified.varTypes.insert name type }
  | .ivarType name type =>
    { classified with ivarTypes := classified.ivarTypes.insert name type }
  | .constType path type =>
    { classified with constTypes := classified.constTypes.insert path type }
  | .methodType name type =>
    { classified with methodTypes := classified.methodTypes.insert name type }
  | .blockType type => { classified with blockType := some type }
  | .breakType type => { classified with breakType := some type }
  | .returnType type => { classified with returnType := some type }
  | .selfType type => { classified with selfType := some type }
  | .instanceType type => { classified with instanceType := some type }
  | .moduleType type => { classified with moduleType := some type }
  | .implements path => { classified with implements := some path }
  | .dynamic names => { classified with dynamics := classified.dynamics.push names }

/-- File annotations from left to right. -/
def fileAll (classified : Classified) (annotations : List Annotation) : Classified :=
  annotations.foldl file classified

/-- What a list of annotations comes to. -/
def ofList (annotations : List Annotation) : Classified := empty.fileAll annotations

/-- The type in a slot. -/
def slot (classified : Classified) : TypeSlot → Option TypeExpr
  | .blockType => classified.blockType
  | .breakType => classified.breakType
  | .returnType => classified.returnType
  | .selfType => classified.selfType
  | .instanceType => classified.instanceType
  | .moduleType => classified.moduleType

@[simp]
theorem fileAll_nil (classified : Classified) : classified.fileAll [] = classified := rfl

@[simp]
theorem fileAll_cons (classified : Classified) (a : Annotation) (as : List Annotation) :
    classified.fileAll (a :: as) = (classified.file a).fileAll as := rfl

/-- Filing two lists one after the other is filing them as one. -/
theorem fileAll_append (classified : Classified) (as bs : List Annotation) :
    classified.fileAll (as ++ bs) = (classified.fileAll as).fileAll bs := by
  simp [fileAll]

end Classified

end ScopedAnnotations
