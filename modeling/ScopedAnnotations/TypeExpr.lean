import ScopedAnnotations.QualifiedName

/-!
# Type expressions

Types as an author writes them, before anyone has said what the names in them
stand for. A named type carries the path as written, relative or absolute, and
nothing here looks it up.

A method type is kept apart from the types: it is resolved as a whole, with
its parameters, its block and its result together. The two nevertheless need
each other, because a proc is a type made from a method type. The shape of a
method type is therefore given over an arbitrary type of types, and type
expressions are the ones that use it on themselves – one recursive type, not
two that call each other.

Everything below that walks an expression does so by structural recursion over
three shapes at once: an expression, a list of them, and a signature.
-/

namespace ScopedAnnotations

/-- The block a method takes: `{ (A) -> B }`. -/
structure BlockSignature (τ : Type) where
  /-- The types of the values the block is given. -/
  params : List τ
  /-- The type of the value the block gives back. -/
  ret : τ
  /-- Whether the caller has to pass a block at all. -/
  required : Bool
  deriving DecidableEq

/-- The shape of a method type: `[T] (A, B) { (C) -> D } -> R`. -/
structure Signature (τ : Type) where
  /-- The type variables the signature binds. -/
  typeParams : List Name := []
  /-- The types of the arguments. -/
  params : List τ
  /-- The block, if the method takes one. -/
  block : Option (BlockSignature τ) := none
  /-- The type of the result. -/
  ret : τ
  deriving DecidableEq

/-- A type, as written. -/
inductive TypeExpr where
  /-- Anything at all: `untyped`. -/
  | any
  /-- No value that anyone should look at: `void`. -/
  | void
  /-- The value `nil`. -/
  | nil
  /-- Truth values: `bool`. -/
  | bool
  /-- The receiver's own type: `self`. -/
  | selfType
  /-- The instances of the receiver: `instance`. -/
  | instanceType
  /-- The class of the receiver: `class`. -/
  | classType
  /-- A type variable bound by a generic method or module: `T`. -/
  | var (name : Name)
  /-- A class, a module or an alias, with its type arguments: `Array[String]`. -/
  | named (path : QualifiedName) (args : List TypeExpr)
  /-- Fixed places: `[A, B]`. -/
  | tuple (elems : List TypeExpr)
  /-- Alternatives: `A | B`. -/
  | union (members : List TypeExpr)
  /-- A type or `nil`: `A?`. -/
  | optional (inner : TypeExpr)
  /-- A method type made into a type: `^(A) -> B`. -/
  | proc (method : Signature TypeExpr)

/-- The type of a method, as written. -/
abbrev MethodType := Signature TypeExpr

/-- The type of a method's block, as written. -/
abbrev BlockType := BlockSignature TypeExpr

namespace TypeExpr

instance : Inhabited TypeExpr := ⟨any⟩

/-- A named type without type arguments. -/
def ofPath (path : QualifiedName) : TypeExpr := named path []

/-! ## Equality

Expressions are compared constructor by constructor and path by path; `Foo`
and `::Foo` are different expressions. -/

mutual

/-- Whether two expressions are the same. -/
def same : TypeExpr → TypeExpr → Bool
  | any, any | void, void | nil, nil | bool, bool | selfType, selfType
  | instanceType, instanceType | classType, classType => true
  | var m, var n => decide (m = n)
  | named p ss, named q ts => decide (p = q) && sameAll ss ts
  | tuple ss, tuple ts => sameAll ss ts
  | union ss, union ts => sameAll ss ts
  | optional s, optional t => s.same t
  | proc s, proc t => sameSignature s t
  | _, _ => false

/-- Whether two lists hold the same expressions in the same order. -/
def sameAll : List TypeExpr → List TypeExpr → Bool
  | [], [] => true
  | s :: ss, t :: ts => s.same t && sameAll ss ts
  | _, _ => false

/-- Whether two signatures are the same. -/
def sameSignature : Signature TypeExpr → Signature TypeExpr → Bool
  | ⟨vs, ps, none, r⟩, ⟨ws, qs, none, t⟩ =>
    decide (vs = ws) && (sameAll ps qs && r.same t)
  | ⟨vs, ps, some ⟨bs, br, bq⟩, r⟩, ⟨ws, qs, some ⟨cs, cr, cq⟩, t⟩ =>
    decide (vs = ws) && (sameAll ps qs &&
      ((sameAll bs cs && (br.same cr && decide (bq = cq))) && r.same t))
  | _, _ => false

end

-- By recursion on the left expression; what remains of each case is that two
-- different constructors are different, and one step down.
mutual

theorem same_iff : ∀ s t : TypeExpr, s.same t = true ↔ s = t
  | .any, t => by cases t <;> simp [same]
  | .void, t => by cases t <;> simp [same]
  | .nil, t => by cases t <;> simp [same]
  | .bool, t => by cases t <;> simp [same]
  | .selfType, t => by cases t <;> simp [same]
  | .instanceType, t => by cases t <;> simp [same]
  | .classType, t => by cases t <;> simp [same]
  | .var m, t => by cases t <;> simp [same]
  | .named p ss, t => by cases t <;> simp [same, sameAll_iff ss]
  | .tuple ss, t => by cases t <;> simp [same, sameAll_iff ss]
  | .union ss, t => by cases t <;> simp [same, sameAll_iff ss]
  | .optional s, t => by cases t <;> simp [same, same_iff s]
  | .proc s, t => by cases t <;> simp [same, sameSignature_iff s]

theorem sameAll_iff : ∀ ss ts : List TypeExpr, sameAll ss ts = true ↔ ss = ts
  | [], ts => by cases ts <;> simp [sameAll]
  | s :: ss, ts => by cases ts <;> simp [sameAll, same_iff s, sameAll_iff ss]

theorem sameSignature_iff :
    ∀ s t : Signature TypeExpr, sameSignature s t = true ↔ s = t
  | ⟨_, ps, none, r⟩, ⟨_, _, none, _⟩ => by
    simp [sameSignature, sameAll_iff ps, same_iff r]
  | ⟨_, ps, some ⟨bs, br, _⟩, r⟩, ⟨_, _, some ⟨_, _, _⟩, _⟩ => by
    simp [sameSignature, sameAll_iff ps, same_iff r, sameAll_iff bs, same_iff br]
  | ⟨_, _, none, _⟩, ⟨_, _, some _, _⟩ => by simp [sameSignature]
  | ⟨_, _, some _, _⟩, ⟨_, _, none, _⟩ => by simp [sameSignature]

end

instance : DecidableEq TypeExpr := fun s t => decidable_of_iff _ (same_iff s t)

/-! ## Relative expressions -/

mutual

/-- Whether any named type inside is relative, at any depth: in that case,
and only then, what the expression stands for depends on the module around
it. Type variables are not names of types. -/
def isRelative : TypeExpr → Bool
  | any | void | nil | bool | selfType | instanceType | classType | var _ => false
  | named path args => !path.absolute || anyRelative args
  | tuple elems => anyRelative elems
  | union members => anyRelative members
  | optional inner => inner.isRelative
  | proc method => relativeSignature method

/-- Whether any of the expressions is relative. -/
def anyRelative : List TypeExpr → Bool
  | [] => false
  | t :: ts => t.isRelative || anyRelative ts

/-- Whether a parameter, the result, or a part of the block is relative. -/
def relativeSignature : Signature TypeExpr → Bool
  | ⟨_, params, none, ret⟩ => anyRelative params || ret.isRelative
  | ⟨_, params, some ⟨blockParams, blockRet, _⟩, ret⟩ =>
    anyRelative params || ret.isRelative
      || (anyRelative blockParams || blockRet.isRelative)

end

/-! ## Replacing the paths -/

mutual

/-- Replace the path of every named type inside, at any depth, and leave the
rest as it is. -/
def mapPaths (f : QualifiedName → QualifiedName) : TypeExpr → TypeExpr
  | any => any
  | void => void
  | nil => nil
  | bool => bool
  | selfType => selfType
  | instanceType => instanceType
  | classType => classType
  | var name => var name
  | named path args => named (f path) (mapPathsAll f args)
  | tuple elems => tuple (mapPathsAll f elems)
  | union members => union (mapPathsAll f members)
  | optional inner => optional (inner.mapPaths f)
  | proc method => proc (mapPathsSignature f method)

/-- Replace the paths in each of the expressions. -/
def mapPathsAll (f : QualifiedName → QualifiedName) : List TypeExpr → List TypeExpr
  | [] => []
  | t :: ts => t.mapPaths f :: mapPathsAll f ts

/-- Replace the paths in the parameters, the block and the result; the bound
variables and whether the block is required stay. -/
def mapPathsSignature (f : QualifiedName → QualifiedName) :
    Signature TypeExpr → Signature TypeExpr
  | ⟨vars, params, none, ret⟩ => ⟨vars, mapPathsAll f params, none, ret.mapPaths f⟩
  | ⟨vars, params, some ⟨blockParams, blockRet, required⟩, ret⟩ =>
    ⟨vars, mapPathsAll f params,
      some ⟨mapPathsAll f blockParams, blockRet.mapPaths f, required⟩, ret.mapPaths f⟩

end

theorem anyRelative_eq_any (ts : List TypeExpr) :
    anyRelative ts = ts.any isRelative := by
  induction ts with
  | nil => rfl
  | cons t ts ih => simp [anyRelative, ih]

theorem mapPathsAll_eq_map (f : QualifiedName → QualifiedName) (ts : List TypeExpr) :
    mapPathsAll f ts = ts.map (mapPaths f) := by
  induction ts with
  | nil => rfl
  | cons t ts ih => simp [mapPathsAll, ih]

end TypeExpr

namespace Signature

/-- Whether any named type in a method type is relative. -/
def isRelative (method : MethodType) : Bool := TypeExpr.relativeSignature method

/-- Replace the path of every named type in a method type. -/
def mapPaths (f : QualifiedName → QualifiedName) (method : MethodType) : MethodType :=
  TypeExpr.mapPathsSignature f method

/-- A signature with no type variables and no block: `(params) -> ret`. -/
def ofParams {τ : Type} (params : List τ) (ret : τ) : Signature τ where
  params := params
  ret := ret

end Signature

end ScopedAnnotations
