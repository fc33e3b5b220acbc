import ScopedAnnotations.Resolver.Anchoring

/-!
# The paths in a type expression

Three functions walk a type expression to the bottom: one asks whether
anything in it is relative, one replaces its paths, and the anchoring resolver
is the second with a particular replacement. They were written apart, and a
position that one of them forgot would make them disagree about what an
expression depends on.

What they have in common is the list of the paths they visit
(`TypeExpr.paths`). Being relative is a question about the paths in the list
(`TypeExpr.isRelative_eq_any`), and a replacement makes of an expression one
whose list is what it makes of the paths (`TypeExpr.paths_mapPaths`). What is
said of anchoring in the modules that follow is said of this list.
-/

namespace ScopedAnnotations

namespace TypeExpr

mutual

/-- **The paths of the named types in an expression**, at any depth, from left
to right. -/
def paths : TypeExpr → List QualifiedName
  | any | void | nil | bool | selfType | instanceType | classType | var _ => []
  | named path args => path :: pathsAll args
  | tuple elems => pathsAll elems
  | union members => pathsAll members
  | optional inner => inner.paths
  | proc method => pathsSignature method

/-- The paths in each of the expressions. -/
def pathsAll : List TypeExpr → List QualifiedName
  | [] => []
  | t :: ts => t.paths ++ pathsAll ts

/-- The paths in the parameters, the block and the result. -/
def pathsSignature : Signature TypeExpr → List QualifiedName
  | ⟨_, params, none, ret⟩ => pathsAll params ++ ret.paths
  | ⟨_, params, some ⟨blockParams, blockRet, _⟩, ret⟩ =>
    pathsAll params ++ ((pathsAll blockParams ++ blockRet.paths) ++ ret.paths)

end

end TypeExpr

/-- The paths in a method type, from left to right. -/
def Signature.paths (method : MethodType) : List QualifiedName :=
  TypeExpr.pathsSignature method

namespace TypeExpr

/-! ## Being relative is having a relative path -/

theorem any_not_absolute_eq_false_iff {ps : List QualifiedName} :
    (ps.any fun p => !p.absolute) = false ↔ ∀ p ∈ ps, p.absolute = true := by
  rw [List.any_eq_false]
  exact forall₂_congr (fun p _ => by rw [Bool.not_eq_true', Bool.not_eq_false])

mutual

/-- **An expression is relative exactly if one of its paths is.** -/
theorem isRelative_eq_any : ∀ t : TypeExpr, t.isRelative = t.paths.any fun p => !p.absolute
  | any | void | nil | bool | selfType | instanceType | classType | var _ => rfl
  | named path args => by
    rw [isRelative, paths, List.any_cons, anyRelative_eq_any_pathsAll args]
  | tuple elems => by rw [isRelative, paths, anyRelative_eq_any_pathsAll elems]
  | union members => by rw [isRelative, paths, anyRelative_eq_any_pathsAll members]
  | optional inner => by rw [isRelative, paths, isRelative_eq_any inner]
  | proc method => by rw [isRelative, paths, relativeSignature_eq_any method]

theorem anyRelative_eq_any_pathsAll :
    ∀ ts : List TypeExpr, anyRelative ts = (pathsAll ts).any fun p => !p.absolute
  | [] => rfl
  | t :: ts => by
    rw [anyRelative, pathsAll, List.any_append, isRelative_eq_any t,
      anyRelative_eq_any_pathsAll ts]

theorem relativeSignature_eq_any :
    ∀ s : Signature TypeExpr, relativeSignature s = (pathsSignature s).any fun p => !p.absolute
  | ⟨_, params, none, ret⟩ => by
    rw [relativeSignature, pathsSignature, List.any_append, anyRelative_eq_any_pathsAll params,
      isRelative_eq_any ret]
  | ⟨_, params, some ⟨blockParams, blockRet, _⟩, ret⟩ => by
    -- The block is asked last and listed before the result.
    rw [relativeSignature, pathsSignature, List.any_append, List.any_append, List.any_append,
      anyRelative_eq_any_pathsAll params, isRelative_eq_any ret,
      anyRelative_eq_any_pathsAll blockParams, isRelative_eq_any blockRet, Bool.or_assoc]
    exact congrArg (_ || ·) (Bool.or_comm _ _)

end

theorem isRelative_eq_false_iff {t : TypeExpr} :
    t.isRelative = false ↔ ∀ p ∈ t.paths, p.absolute = true := by
  rw [isRelative_eq_any, any_not_absolute_eq_false_iff]

/-! ## Replacements replace the paths where they stand -/

section MapPaths

variable (f : QualifiedName → QualifiedName)

mutual

/-- **A replacement replaces the paths where they stand**: the paths of the
result are what it makes of the paths, in the same order. -/
theorem paths_mapPaths : ∀ t : TypeExpr, (t.mapPaths f).paths = t.paths.map f
  | any | void | nil | bool | selfType | instanceType | classType | var _ => rfl
  | named path args => by
    rw [mapPaths, paths, paths, List.map_cons, pathsAll_mapPathsAll args]
  | tuple elems => by rw [mapPaths, paths, paths, pathsAll_mapPathsAll elems]
  | union members => by rw [mapPaths, paths, paths, pathsAll_mapPathsAll members]
  | optional inner => by rw [mapPaths, paths, paths, paths_mapPaths inner]
  | proc method => by rw [mapPaths, paths, paths, pathsSignature_mapPathsSignature method]

theorem pathsAll_mapPathsAll :
    ∀ ts : List TypeExpr, pathsAll (mapPathsAll f ts) = (pathsAll ts).map f
  | [] => rfl
  | t :: ts => by
    rw [mapPathsAll, pathsAll, pathsAll, List.map_append, paths_mapPaths t,
      pathsAll_mapPathsAll ts]

theorem pathsSignature_mapPathsSignature :
    ∀ s : Signature TypeExpr,
      pathsSignature (mapPathsSignature f s) = (pathsSignature s).map f
  | ⟨_, params, none, ret⟩ => by
    rw [mapPathsSignature, pathsSignature, pathsSignature, List.map_append,
      pathsAll_mapPathsAll params, paths_mapPaths ret]
  | ⟨_, params, some ⟨blockParams, blockRet, _⟩, ret⟩ => by
    rw [mapPathsSignature, pathsSignature, pathsSignature, List.map_append, List.map_append,
      List.map_append, pathsAll_mapPathsAll params, pathsAll_mapPathsAll blockParams,
      paths_mapPaths blockRet, paths_mapPaths ret]

end

end MapPaths

end TypeExpr

namespace Signature

theorem isRelative_eq_false_iff {method : MethodType} :
    method.isRelative = false ↔ ∀ p ∈ method.paths, p.absolute = true := by
  rw [isRelative, TypeExpr.relativeSignature_eq_any, TypeExpr.any_not_absolute_eq_false_iff]
  rfl

end Signature

end ScopedAnnotations
