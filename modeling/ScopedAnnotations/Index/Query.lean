import ScopedAnnotations.Index
import ScopedAnnotations.Resolver

/-!
# Looking things up in an index

An index is asked two sorts of questions. Some concern the expressions as they
were written; they are answered from the places alone. The others concern what
those expressions stand for, and there the index looks up the expression and
puts it to the resolver of its scope, in the context of its scope. It does so
every time it is asked and remembers no answer, so what a look-up costs can be
read off its definition: one question to the resolver if there is an
expression, and none if there is not.
-/

namespace ScopedAnnotations

/-- Something whose type can be looked up. -/
inductive VariableRef where
  /-- A local variable: `x`. -/
  | localVar (name : Name)
  /-- An instance variable: `@x`. -/
  | instanceVar (name : Name)
  /-- A constant: `Foo::BAR`. -/
  | constant (path : QualifiedName)
  deriving DecidableEq, Repr

instance : Describable VariableRef where
  term
    | .localVar name => .call "Local" (term name)
    | .instanceVar name => .call "Instance" (term name)
    | .constant path => .call "Constant" (term path)

namespace Index

/-! ## Expressions as written -/

/-- The type written for a variable or a constant. -/
def variableExpr (index : Index) : VariableRef → Option TypeExpr
  | .localVar name => index.classified.varTypes[name]?
  | .instanceVar name => index.classified.ivarTypes[name]?
  | .constant path => index.classified.constTypes[path]?

/-- The type written for a method. -/
def methodExpr (index : Index) (name : Name) : Option MethodType :=
  index.classified.methodTypes[name]?

/-- The type written for the scope as a whole, for one of the six slots. -/
def slotExpr (index : Index) (slot : TypeSlot) : Option TypeExpr :=
  index.classified.slot slot

/-- The module the scope is said to implement. It is a module and not a type,
so no resolver is asked about it. -/
def implementedModule (index : Index) : Option QualifiedName := index.classified.implements

/-- The dynamic declarations, each with the methods it lists. -/
def dynamicDeclarations (index : Index) : List (List DynamicName) :=
  index.classified.dynamics.toList

/-- The methods of the instances that were declared dynamic, in order and with
repetitions. -/
def dynamicInstanceMethods (index : Index) : List Name :=
  (index.dynamicDeclarations.flatten.filter DynamicName.isInstance).map DynamicName.name

/-- The methods of the module itself that were declared dynamic, in order and
with repetitions. -/
def dynamicModuleMethods (index : Index) : List Name :=
  (index.dynamicDeclarations.flatten.filter DynamicName.isModule).map DynamicName.name

/-! ## What expressions stand for -/

variable {m : Type → Type} [Monad m] {τ μ : Type}

/-- Put a type expression to the resolver of the index's scope. -/
def resolveType (R : Resolvers m τ μ) (index : Index) (type : TypeExpr) : m τ :=
  (R index.scope.resolver).resolveType type index.scope.context

/-- Put a method type to the resolver of the index's scope. -/
def resolveMethod (R : Resolvers m τ μ) (index : Index) (method : MethodType) : m μ :=
  (R index.scope.resolver).resolveMethod method index.scope.context

/-- Put an expression to the resolver if there is one. -/
def resolve? (R : Resolvers m τ μ) (index : Index) : Option TypeExpr → m (Option τ)
  | some type => some <$> index.resolveType R type
  | none => pure none

/-- The declared type of a variable or a constant. -/
def variableType (R : Resolvers m τ μ) (index : Index) (ref : VariableRef) : m (Option τ) :=
  index.resolve? R (index.variableExpr ref)

/-- The declared type of a local variable. -/
def localVariableType (R : Resolvers m τ μ) (index : Index) (name : Name) : m (Option τ) :=
  index.variableType R (.localVar name)

/-- The declared type of an instance variable. -/
def instanceVariableType (R : Resolvers m τ μ) (index : Index) (name : Name) : m (Option τ) :=
  index.variableType R (.instanceVar name)

/-- The declared type of a constant. -/
def constantType (R : Resolvers m τ μ) (index : Index) (path : QualifiedName) :
    m (Option τ) :=
  index.variableType R (.constant path)

/-- The declared type of a method, resolved as a whole. -/
def methodType (R : Resolvers m τ μ) (index : Index) (name : Name) : m (Option μ) :=
  match index.methodExpr name with
  | some method => some <$> index.resolveMethod R method
  | none => pure none

/-- The declared type in one of the six slots of the scope as a whole. -/
def slotType (R : Resolvers m τ μ) (index : Index) (slot : TypeSlot) : m (Option τ) :=
  index.resolve? R (index.slotExpr slot)

/-- The expressions of a map, resolved one by one in the order of their
keys. -/
def resolveAll {κ : Type} [Ord κ] [Std.TransOrd κ] (R : Resolvers m τ μ) (index : Index)
    (types : Std.ExtTreeMap κ TypeExpr) : m (Std.ExtTreeMap κ τ) := do
  let entries ← types.toList.mapM fun (key, type) => do
    return (key, ← index.resolveType R type)
  return .ofList entries

/-- The declared types of all local variables. -/
def localVariableTypes (R : Resolvers m τ μ) (index : Index) : m (Std.ExtTreeMap Name τ) :=
  index.resolveAll R index.classified.varTypes

/-- The declared types of all instance variables. -/
def instanceVariableTypes (R : Resolvers m τ μ) (index : Index) :
    m (Std.ExtTreeMap Name τ) :=
  index.resolveAll R index.classified.ivarTypes

/-- The declared types of all constants. -/
def constantTypes (R : Resolvers m τ μ) (index : Index) :
    m (Std.ExtTreeMap QualifiedName τ) :=
  index.resolveAll R index.classified.constTypes

end Index

end ScopedAnnotations
