import ScopedAnnotations.Proofs.Answer

/-!
# The last annotation wins

An index does not keep what it was told, only what it was told last, and this
module says so in terms of the list alone. Of each look-up there is a form of
annotation that answers it: `Annotation.varType x` for the local variable `x`,
`Annotation.constType p` for the constant at the path `p`, and so on. The
answer is what the last annotation of that form says, put to the resolver of
the scope in the context of the scope, and annotations of any other form have
no part in it (`Index.build_answers_last`).

The form of a constant is given by its path as written, so `Foo` and `::Foo`
are declared separately even where they will turn out to be the same constant.
-/

namespace ScopedAnnotations

/-- **What the last annotation of a form says**: nothing, if the list has no
annotation of that form. -/
def IsLast {α : Type} (form : α → Annotation) (as : List Annotation) : Option α → Prop
  | none => ∀ x, form x ∉ as
  | some x => ∃ before after, as = before ++ form x :: after ∧ ∀ y, form y ∉ after

/-- What a list leaves in a place is what its last annotation about the place
says. -/
theorem isLast_lastContent? (as : List Annotation) (place : Place) :
    IsLast place.annotation as (lastContent? as place) := by
  cases h : lastContent? as place with
  | none => exact lastContent?_eq_none_iff.mp h
  | some content => exact exists_of_lastContent?_eq_some h

/-- An annotation that says nothing at a place might as well not be there. -/
theorem lastContent?_append_cons_of_eq_none {a : Annotation} {place : Place}
    (h : a.content? place = none) (before after : List Annotation) :
    lastContent? (before ++ a :: after) place = lastContent? (before ++ after) place := by
  rw [lastContent?_append, lastContent?_cons, h, Option.or_none, ← lastContent?_append]

namespace Index

variable {m : Type → Type} [Monad m] {τ μ : Type}

/-- An index holds in a place what its last annotation about the place says. -/
theorem isLast_content? (index : Index) (place : Place) :
    IsLast place.annotation index.annotations (index.content? place) := by
  rw [content?_eq_lastContent?]
  exact isLast_lastContent? index.annotations place

/-- What a look-up is answered with depends on the index only through its
scope and the content of the place. -/
theorem answer?_congr (R : Resolvers m τ μ) {i j : Index} {place : Place}
    (hscope : i.scope = j.scope) (hcontent : i.content? place = j.content? place) :
    i.answer? R place = j.answer? R place := by
  cases place with
  | ref r =>
    show i.variableType R r = j.variableType R r
    rw [variableType_eq_mapM, variableType_eq_mapM, hscope]
    exact congrArg _ hcontent
  | method name =>
    show i.methodType R name = j.methodType R name
    rw [methodType_eq_mapM, methodType_eq_mapM, hscope]
    exact congrArg _ hcontent
  | slot s =>
    show i.slotType R s = j.slotType R s
    rw [slotType_eq_mapM, slotType_eq_mapM, hscope]
    exact congrArg _ hcontent
  | implements => exact congrArg pure hcontent

/-- A look-up has no answer exactly when no annotation is about its place. -/
theorem answer?_eq_none_iff (R : Resolvers Id τ μ) (index : Index) (place : Place) :
    index.answer? R place = none ↔ ∀ content, place.annotation content ∉ index.annotations := by
  rw [answer?_eq_map, Option.map_eq_none_iff, content?_eq_lastContent?, lastContent?_eq_none_iff]

/-- **The last annotation wins.** Every look-up of an index is answered with
what the last annotation of its form says: a type or a method type is put to
the resolver of the scope, as written and in the context of the scope, and the
module being implemented is not put to anyone. Without such an annotation
there is no answer, and only then.

Annotations about other places – of another kind, or with another key – do not
bear on a look-up wherever they stand in the list, and a path written from the
root is another key than the same path written without. All the annotations
are kept, whether or not they win. -/
theorem build_answers_last (R : Resolvers m τ μ) (as : List Annotation)
    (scope : ResolutionScope) :
    let index := build as scope
    let resolveType (type : TypeExpr) := (R scope.resolver).resolveType type scope.context
    let resolveMethod (type : MethodType) := (R scope.resolver).resolveMethod type scope.context
    (∀ name, ∃ last, IsLast (.varType name) as last
      ∧ index.localVariableType R name = last.mapM resolveType)
    ∧ (∀ name, ∃ last, IsLast (.ivarType name) as last
      ∧ index.instanceVariableType R name = last.mapM resolveType)
    ∧ (∀ path, ∃ last, IsLast (.constType path) as last
      ∧ index.constantType R path = last.mapM resolveType)
    ∧ (∀ name, ∃ last, IsLast (.methodType name) as last
      ∧ index.methodType R name = last.mapM resolveMethod)
    ∧ (∀ slot : TypeSlot, ∃ last, IsLast slot.annotation as last
      ∧ index.slotType R slot = last.mapM resolveType)
    ∧ IsLast .implements as index.implementedModule
    ∧ (∀ (pureR : Resolvers Id τ μ) (place : Place),
      index.answer? pureR place = none ↔ ∀ content, place.annotation content ∉ as)
    ∧ (∀ (place : Place) (a : Annotation) (before after : List Annotation),
      (∀ content, a ≠ place.annotation content) →
        (build (before ++ a :: after) scope).answer? R place
          = (build (before ++ after) scope).answer? R place)
    ∧ (∀ qualifier name, QualifiedName.relative qualifier name ≠ .rooted qualifier name)
    ∧ index.annotations = as
    ∧ index.size = as.length := by
  intro index resolveType resolveMethod
  have hlast (place : Place) : IsLast place.annotation as (index.content? place) :=
    isLast_content? index place
  refine ⟨fun name => ?_, fun name => ?_, fun path => ?_, fun name => ?_, fun slot => ?_,
    hlast .implements, fun pureR place => answer?_eq_none_iff pureR index place,
    fun place a before after h => ?_, fun qualifier name h => ?_, rfl, rfl⟩
  · exact ⟨_, hlast (.ref (.localVar name)), variableType_eq_mapM R index _⟩
  · exact ⟨_, hlast (.ref (.instanceVar name)), variableType_eq_mapM R index _⟩
  · exact ⟨_, hlast (.ref (.constant path)), variableType_eq_mapM R index _⟩
  · exact ⟨_, hlast (.method name), methodType_eq_mapM R index name⟩
  · exact ⟨_, hlast (.slot slot), slotType_eq_mapM R index slot⟩
  · -- Both indexes hold the same in this place, and they have the same scope.
    have hsilent := Annotation.content?_eq_none_iff.mpr h
    refine answer?_congr R rfl ?_
    rw [content?_eq_lastContent?, content?_eq_lastContent?]
    exact lastContent?_append_cons_of_eq_none hsilent before after
  · cases congrArg QualifiedName.absolute h

end Index

end ScopedAnnotations
