import ScopedAnnotations.Resolver

/-!
# Rendering

A resolver may just as well answer with texts. The *rendering* resolver writes
a type the way an author would, except that every named type it reaches is
written from the root. It reaches named types, their type arguments and what
is optional. It does not look inside tuples, unions and procs: these, and the
types that name nothing, are shown as terms, with nothing inside resolved.

The texts of the names come from a symbol table, so what is written depends on
the table as well as on the context. A table that only grows never changes the
text of a name it knows.
-/

namespace ScopedAnnotations

/-- A path written from the root: an absolute path as it is, a relative one
after the path of the context. -/
def QualifiedName.displayIn (lookUp : Name → String) (context : ModuleContext)
    (path : QualifiedName) : String :=
  if path.absolute then
    path.display lookUp
  else
    match context.module? with
    | some m => m.display lookUp ++ "::" ++ path.display lookUp
    | none => "::" ++ path.display lookUp

namespace TypeExpr

mutual

/-- The text of a type expression in a context. -/
def rendered (lookUp : Name → String) (context : ModuleContext) : TypeExpr → String
  | named path [] => path.displayIn lookUp context
  | named path (arg :: args) =>
    path.displayIn lookUp context ++ "["
      ++ ", ".intercalate (arg.rendered lookUp context :: renderedAll lookUp context args)
      ++ "]"
  | optional inner => inner.rendered lookUp context ++ "?"
  | var name => lookUp name
  | void => "void"
  | nil => "nil"
  | bool => "bool"
  -- From here on nothing is resolved.
  | any => describe any
  | selfType => describe selfType
  | instanceType => describe instanceType
  | classType => describe classType
  | tuple elems => describe (tuple elems)
  | union members => describe (union members)
  | proc method => describe (proc method)

/-- The texts of type expressions in a context. -/
def renderedAll (lookUp : Name → String) (context : ModuleContext) :
    List TypeExpr → List String
  | [] => []
  | t :: ts => t.rendered lookUp context :: renderedAll lookUp context ts

end

theorem renderedAll_eq_map (lookUp : Name → String) (context : ModuleContext)
    (ts : List TypeExpr) :
    renderedAll lookUp context ts = ts.map (rendered lookUp context) := by
  induction ts with
  | nil => rfl
  | cons t ts ih => simp [renderedAll, ih]

end TypeExpr

/-- The text of a method type in a context: its parameters and its result. The
variables it binds and its block are not part of the text. -/
def Signature.rendered (lookUp : Name → String) (context : ModuleContext)
    (method : MethodType) : String :=
  "(" ++ ", ".intercalate (method.params.map (TypeExpr.rendered lookUp context)) ++ ") -> "
    ++ method.ret.rendered lookUp context

/-- The rendering resolver, given the texts of names. -/
def Resolver.rendering (lookUp : Name → String) : Resolver Id String String where
  resolveType type context := type.rendered lookUp context
  resolveMethod method context := method.rendered lookUp context

end ScopedAnnotations
