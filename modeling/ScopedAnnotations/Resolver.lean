import Std.Data.ExtTreeMap
import ScopedAnnotations.Scope

/-!
# Resolvers

A *resolver* turns what an author wrote into what it stands for. It is told
the expression and the module context and answers with a type of its own
making, about which nothing is assumed. A method type is a question of its
own: it is resolved as a whole and not piece by piece.

Resolving may have effects – a resolver may keep books, or fail – and in which
monad it does so is left open. What the rest of the library promises about
resolvers is how often, and on what, it asks them. To make that visible, any
resolver without effects can be made to count the questions it is asked.
-/

namespace ScopedAnnotations

/-- Someone who says what expressions stand for: types of type `τ`, methods of
type `μ`. -/
structure Resolver (m : Type → Type) (τ μ : Type) where
  /-- What a type expression stands for in a context. -/
  resolveType : TypeExpr → ModuleContext → m τ
  /-- What a method type stands for in a context, as a whole. -/
  resolveMethod : MethodType → ModuleContext → m μ

/-- Every resolver there is, by identity. -/
abbrev Resolvers (m : Type → Type) (τ μ : Type) := ResolverId → Resolver m τ μ

namespace Resolver

/-- The same resolver with its answers recast. -/
def map {τ μ τ' μ' : Type} (f : τ → τ') (g : μ → μ') (resolver : Resolver Id τ μ) :
    Resolver Id τ' μ' where
  resolveType type context := f (resolver.resolveType type context)
  resolveMethod method context := g (resolver.resolveMethod method context)

/-- The resolver that answers with the question: the expression it was given
and the context it was given for it. -/
def echo : Resolver Id (TypeExpr × ModuleContext) (MethodType × ModuleContext) where
  resolveType type context := (type, context)
  resolveMethod method context := (method, context)

end Resolver

/-! ## Counting questions -/

/-- How many questions each resolver has been asked. -/
@[ext]
structure Calls where
  /-- The counts that are not zero. -/
  counts : Std.ExtTreeMap ResolverId Nat := ∅

namespace Calls

/-- No questions asked. -/
def none : Calls := {}

/-- How many questions a resolver has been asked. -/
def count (calls : Calls) (resolver : ResolverId) : Nat := calls.counts.getD resolver 0

/-- One more question to a resolver. -/
def record (calls : Calls) (resolver : ResolverId) : Calls :=
  ⟨calls.counts.insert resolver (calls.count resolver + 1)⟩

@[simp]
theorem count_none (resolver : ResolverId) : none.count resolver = 0 := by
  simp [none, count]

/-- A question counts for the resolver that was asked and for no other. -/
theorem count_record (calls : Calls) (asked resolver : ResolverId) :
    (calls.record asked).count resolver
      = calls.count resolver + if asked = resolver then 1 else 0 := by
  by_cases h : asked = resolver
  · subst h; simp [record, count]
  · simp [record, count, Std.ExtTreeMap.getD_insert, h]

end Calls

/-- A resolver that counts: every question is counted, under the given
identity, and then answered. However large the expression, it is one
question. -/
def Resolver.counted {τ μ : Type} (id : ResolverId) (resolver : Resolver Id τ μ) :
    Resolver (StateM Calls) τ μ where
  resolveType type context := do
    modify (Calls.record · id)
    return resolver.resolveType type context
  resolveMethod method context := do
    modify (Calls.record · id)
    return resolver.resolveMethod method context

/-- Every resolver counts for itself. -/
def Resolvers.counted {τ μ : Type} (R : Resolvers Id τ μ) : Resolvers (StateM Calls) τ μ :=
  fun id => (R id).counted id

end ScopedAnnotations
