import ScopedAnnotations.Resolver

/-!
# Anchoring

The simplest reading of a relative name is that it belongs to the module
around it: inside `::App`, `Foo` is `::App::Foo`. The *anchoring* resolver
reads every name this way. It replaces the paths of named types at any depth
and touches nothing else – not type variables, not what a signature binds, not
whether its block is required – so its answers are expressions again, only
without anything relative in them.
-/

namespace ScopedAnnotations

/-- The absolute path that a path stands for in a context. A path that is
absolute already stands for itself. -/
def QualifiedName.anchor (context : ModuleContext) (path : QualifiedName) : QualifiedName :=
  if path.absolute then path else .rooted (context.path ++ path.qualifier) path.name

/-- Anchor every name in a type expression. -/
def TypeExpr.anchor (context : ModuleContext) (type : TypeExpr) : TypeExpr :=
  type.mapPaths (QualifiedName.anchor context)

/-- Anchor every name in a method type. -/
def Signature.anchor (context : ModuleContext) (method : MethodType) : MethodType :=
  method.mapPaths (QualifiedName.anchor context)

/-- The anchoring resolver. -/
def Resolver.anchoring : Resolver Id TypeExpr MethodType where
  resolveType type context := type.anchor context
  resolveMethod method context := method.anchor context

namespace QualifiedName

@[simp]
theorem absolute_anchor (context : ModuleContext) (path : QualifiedName) :
    (path.anchor context).absolute = true := by
  unfold anchor
  split <;> simp_all [rooted]

theorem anchor_of_absolute {context : ModuleContext} {path : QualifiedName}
    (h : path.absolute = true) : path.anchor context = path := by
  simp [anchor, h]

/-- A relative path is anchored by putting the context in front of it. -/
theorem segments_anchor_of_relative {context : ModuleContext} {path : QualifiedName}
    (h : path.absolute = false) :
    (path.anchor context).segments = context.path ++ path.segments := by
  simp [anchor, h, segments, rooted]

end QualifiedName

end ScopedAnnotations
