import ScopedAnnotations.SymbolTable
import ScopedAnnotations.Index

/-!
# A workbench

Writing annotations down as values means interning every name that occurs in
them. A *workbench* takes texts instead. It has a symbol table, the identity
of a resolver, and the context of a module called `App`; each of its
operations interns the texts it is given, when it is given them, and makes the
value out of the names.

The order of interning is part of what an operation does, since it shows in
the numbers: the name of what is declared comes first and the name of its type
second, and a list is gone through from left to right.
-/

namespace ScopedAnnotations

/-- The resolver and the context that a workbench's annotations go by. Its
symbol table is the state of its operations. -/
structure Workbench where
  /-- The resolver. -/
  resolver : ResolverId
  /-- The inside of `::App`. -/
  context : ModuleContext
  deriving DecidableEq

/-- A declaration, with texts in place of names. Its types are relative and
without arguments. -/
inductive Declaration where
  /-- The type of a local variable. -/
  | var (name type : String)
  /-- The type of an instance variable. -/
  | ivar (name type : String)
  /-- The type of a constant. -/
  | const (name type : String)
  /-- The result of a method without parameters. -/
  | method (name type : String)
  /-- The type of the block. -/
  | block (type : String)
  /-- The type of the values that `break` leaves the block with. -/
  | breakOut (type : String)
  /-- Dynamic methods, and for each whether it lives on the instances. -/
  | dynamic (names : List (String × Bool))
  deriving DecidableEq, Repr

namespace Workbench

/-- The module that workbenches work in. -/
def moduleName : String := "App"

/-- A workbench for a resolver. The module's name is the first text
interned. -/
def create (resolver : ResolverId) : InternM Workbench := do
  let app ← InternM.name moduleName
  return ⟨resolver, ModuleContext.root.enter app⟩

/-- The scope of everything made at the workbench. -/
def scope (bench : Workbench) : ResolutionScope := ⟨bench.resolver, bench.context⟩

/-- The index of a list of annotations. -/
def build (bench : Workbench) (annotations : List Annotation) : Index :=
  bench.scope.build annotations

/-- The type of this name, as written: relative. -/
def type (text : String) : InternM TypeExpr :=
  return .ofPath (.simple (← InternM.name text))

/-- The type of this name inside `::App`. The module's name is interned
first. -/
def resolvedType (text : String) : InternM TypeExpr := do
  let app ← InternM.name moduleName
  return .ofPath (.rooted [app] (← InternM.name text))

/-- One method of a dynamic declaration. -/
def dynamicName (name : String) (onInstance : Bool) : InternM DynamicName := do
  let name ← InternM.name name
  return if onInstance then .ofInstance name else .ofModule name

/-- The annotation that a declaration comes to. -/
def declare : Declaration → InternM Annotation
  | .var n t => do
    let n ← InternM.name n
    return .varType n (← type t)
  | .ivar n t => do
    let n ← InternM.name n
    return .ivarType n (← type t)
  | .const n t => do
    let n ← InternM.name n
    return .constType (.simple n) (← type t)
  | .method n t => do
    let n ← InternM.name n
    return .methodType n (.ofParams [] (← type t))
  | .block t => return .blockType (← type t)
  | .breakOut t => return .breakType (← type t)
  | .dynamic names =>
    return .dynamic (← names.mapM fun (name, onInstance) => dynamicName name onInstance)

/-- The annotations that declarations come to, made from left to right. -/
def declareAll (declarations : List Declaration) : InternM (List Annotation) :=
  declarations.mapM declare

end Workbench

end ScopedAnnotations
