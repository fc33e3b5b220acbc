import ScopedAnnotations.Proofs.Place

/-!
# Answers

A look-up asks about a place and is answered with what the resolver of the
index's scope makes of the content of that place. The look-ups of variables,
of methods and of the six slots are separate functions, and each of them is
this one thing (`Index.answer?_eq_mapM`): the content is put to the resolver
once, in the context of the scope, and where there is no content nothing is
put to it at all.

A snapshot of a whole map is the look-ups of its keys taken together, and no
others (`Index.getElem?_resolveAll`).
-/

namespace ScopedAnnotations

/-- What a look-up is answered with: what types and methods stand for, except
that the module being implemented is answered as written. -/
abbrev Place.Answer (τ μ : Type) : Place → Type
  | .ref _ | .slot _ => τ
  | .method _ => μ
  | .implements => QualifiedName

variable {m : Type → Type} [Monad m] {τ μ : Type}

/-- What a scope makes of the content of a place: a type or a method is put to
its resolver in its context, and a module stays as it is. -/
def ResolutionScope.resolve (R : Resolvers m τ μ) (scope : ResolutionScope) :
    (place : Place) → place.Content → m (place.Answer τ μ)
  | .ref _, type | .slot _, type => (R scope.resolver).resolveType type scope.context
  | .method _, method => (R scope.resolver).resolveMethod method scope.context
  | .implements, path => pure path

namespace Index

/-- The look-up of a place. -/
def answer? (R : Resolvers m τ μ) (index : Index) :
    (place : Place) → m (Option (place.Answer τ μ))
  | .ref r => index.variableType R r
  | .method name => index.methodType R name
  | .slot s => index.slotType R s
  | .implements => pure index.implementedModule

theorem variableType_eq_mapM (R : Resolvers m τ μ) (index : Index) (r : VariableRef) :
    index.variableType R r
      = (index.variableExpr r).mapM (index.scope.resolve R (.ref r)) := by
  unfold variableType
  cases index.variableExpr r <;> rfl

theorem methodType_eq_mapM (R : Resolvers m τ μ) (index : Index) (name : Name) :
    index.methodType R name
      = (index.methodExpr name).mapM (index.scope.resolve R (.method name)) := by
  unfold methodType
  cases index.methodExpr name <;> rfl

theorem slotType_eq_mapM (R : Resolvers m τ μ) (index : Index) (s : TypeSlot) :
    index.slotType R s = (index.slotExpr s).mapM (index.scope.resolve R (.slot s)) := by
  unfold slotType
  cases index.slotExpr s <;> rfl

/-- **A look-up resolves the content of its place**, if there is one. -/
theorem answer?_eq_mapM [LawfulMonad m] (R : Resolvers m τ μ) (index : Index)
    (place : Place) :
    index.answer? R place = (index.content? place).mapM (index.scope.resolve R place) := by
  cases place with
  | ref r => exact variableType_eq_mapM R index r
  | method name => exact methodType_eq_mapM R index name
  | slot s => exact slotType_eq_mapM R index s
  | implements =>
    show pure index.implementedModule = index.implementedModule.mapM pure
    cases index.implementedModule with
    | none => rfl
    | some path => exact (map_pure some path).symm

/-- Without effects, resolving an optional content is applying a function to
it. -/
theorem answer?_eq_map (R : Resolvers Id τ μ) (index : Index) (place : Place) :
    index.answer? R place = (index.content? place).map (index.scope.resolve R place) := by
  rw [answer?_eq_mapM]
  cases index.content? place <;> rfl

/-- **A snapshot is the look-ups of its keys**: at every key it has what the
expression there resolves to, and it has no other keys. -/
theorem getElem?_resolveAll {κ : Type} [Ord κ] [Std.TransOrd κ] [Std.LawfulEqOrd κ]
    (R : Resolvers Id τ μ) (index : Index) (types : Std.ExtTreeMap κ TypeExpr) (key : κ) :
    (index.resolveAll R types).run[key]? = types[key]?.map (index.resolveType R) := by
  have hrun : (index.resolveAll R types).run
      = .ofList (types.toList.map fun entry => (entry.1, index.resolveType R entry.2)) compare :=
    congrArg (Std.ExtTreeMap.ofList · compare) List.idRun_mapM
  rw [hrun]
  cases h : types[key]? with
  | none =>
    classical
    refine Std.ExtTreeMap.getElem?_ofList_of_contains_eq_false ?_
    rw [List.contains_eq_mem, decide_eq_false_iff_not, List.map_map]
    intro hmem
    obtain ⟨⟨key', type⟩, hentry, hkey⟩ := List.mem_map.mp hmem
    change key' = key at hkey
    subst hkey
    rw [Std.ExtTreeMap.mem_toList_iff_getElem?_eq_some.mp hentry] at h
    cases h
  | some type =>
    refine Std.ExtTreeMap.getElem?_ofList_of_mem Std.ReflCmp.compare_self ?_ ?_
    · exact List.pairwise_map.mpr Std.ExtTreeMap.distinct_keys_toList
    · exact List.mem_map.mpr
        ⟨(key, type), Std.ExtTreeMap.mem_toList_iff_getElem?_eq_some.mpr h, rfl⟩

section Snapshots

variable (R : Resolvers Id τ μ) (index : Index)

theorem getElem?_localVariableTypes (name : Name) :
    (index.localVariableTypes R).run[name]? = index.localVariableType R name :=
  (getElem?_resolveAll R index index.classified.varTypes name).trans
    (answer?_eq_map R index (.ref (.localVar name))).symm

theorem getElem?_instanceVariableTypes (name : Name) :
    (index.instanceVariableTypes R).run[name]? = index.instanceVariableType R name :=
  (getElem?_resolveAll R index index.classified.ivarTypes name).trans
    (answer?_eq_map R index (.ref (.instanceVar name))).symm

theorem getElem?_constantTypes (path : QualifiedName) :
    (index.constantTypes R).run[path]? = index.constantType R path :=
  (getElem?_resolveAll R index index.classified.constTypes path).trans
    (answer?_eq_map R index (.ref (.constant path))).symm

end Snapshots

end Index

end ScopedAnnotations
