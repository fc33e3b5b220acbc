import ScopedAnnotations.Proofs.LastWins
import ScopedAnnotations.Proofs.Questions

/-!
# All look-ups agree

What was declared of a variable can be looked up in several ways: by a function for
variables of its kind, by one for variables of any kind, in the snapshot of all
variables of the kind, and as it was written. The first ones look for one key and resolve
what they find. A snapshot goes through a whole map, resolves every entry and puts the
answers into a new one, and on the way a key could get lost or a shadowed declaration
come back. This module says that nothing of the kind happens: the ways agree on every
key, on whether there is an answer as much as on the answer (`Index.Alike`). Methods and
the slots of the scope as a whole have two ways each, resolved and as written, which
agree too.

Agreement alone would be had as well by an index that answers nothing. What the ways
agree on is settled by the annotations: the expression as written is the last one that
any of them has for the key, and the keys of a snapshot are those that any of them
declares.
-/

namespace ScopedAnnotations

namespace Index

variable {τ μ : Type}

/-- **The look-ups of variables of one kind agree.** The annotations of the kind are of
the form `form`, and `ref` refers to the variable with a given key. -/
structure Alike (R : Resolvers Id τ μ) (index : Index) {κ : Type} [Ord κ] [Std.TransOrd κ]
    (kind : Kind) (form : κ → TypeExpr → Annotation) (ref : κ → VariableRef)
    (lookUp : κ → Option τ) (snapshot : Std.ExtTreeMap κ τ) : Prop where
  /-- The keys of the snapshot are those that are declared. -/
  mem_iff : ∀ key, key ∈ snapshot ↔ ∃ type, form key type ∈ index.annotations
  /-- There are as many of them as there are different declared ones. -/
  size_eq : snapshot.size = index.declaredCount kind
  getElem?_eq : ∀ key, snapshot[key]? = lookUp key
  eq_none : ∀ key ∉ snapshot, lookUp key = none
  /-- The two functions for single variables are alike. -/
  lookUp_eq : ∀ key, lookUp key = (index.variableType R (ref key)).run
  /-- What is looked up is what the expression as written resolves to. -/
  resolved : ∀ key, lookUp key = (index.variableExpr (ref key)).map fun type =>
    ((R index.scope.resolver).resolveType type index.scope.context).run
  isLast : ∀ key, IsLast (form key) index.annotations (index.variableExpr (ref key))

/-- **Wherever a map keeps the types of a kind**, the look-ups of that kind agree. -/
theorem Keeps.alike {R : Resolvers Id τ μ} {index : Index} {κ : Type} [Ord κ] [Std.TransOrd κ]
    [Std.LawfulEqOrd κ] {kind : Kind} {ref : κ → VariableRef}
    {types : Std.ExtTreeMap κ TypeExpr} (h : index.Keeps kind ref types) :
    index.Alike R kind (fun key => Place.annotation (.ref (ref key))) ref
      (fun key => (index.variableType R (ref key)).run) (index.resolveAll R types).run := by
  have hresolved (key : κ) : (index.variableType R (ref key)).run
      = (index.variableExpr (ref key)).map (index.resolveType R) :=
    index.answer?_eq_map R (.ref (ref key))
  have hsnapshot (key : κ) : (index.resolveAll R types).run[key]?
      = (index.variableType R (ref key)).run := by
    rw [getElem?_resolveAll, hresolved, h.variableExpr_eq]
  have hmem (key : κ) : key ∈ (index.resolveAll R types).run ↔ key ∈ types := by
    rw [Std.ExtTreeMap.mem_iff_isSome_getElem?, getElem?_resolveAll, Option.isSome_map,
      ← Std.ExtTreeMap.mem_iff_isSome_getElem?]
  exact
    { mem_iff := fun key => by
        rw [hmem, h.mem_iff]
        constructor
        · rintro ⟨a, ha, hplace⟩
          obtain ⟨type, rfl⟩ := Annotation.place?_eq_some_iff.mp hplace
          exact ⟨type, ha⟩
        · rintro ⟨type, ha⟩
          exact ⟨_, ha, Annotation.place?_eq_some_iff.mpr ⟨type, rfl⟩⟩
      size_eq := h.size_eq hmem
      getElem?_eq := hsnapshot
      eq_none := fun key hkey => by
        rw [← hsnapshot]
        exact Std.ExtTreeMap.getElem?_eq_none hkey
      lookUp_eq := fun key => rfl
      resolved := hresolved
      isLast := fun key => index.isLast_content? (.ref (ref key)) }

/-- **All look-ups agree.** For each of the three kinds of variables, the snapshot, the two
functions for single variables and the expression as written agree on every key
(`Alike`). A method and a slot of the scope as a whole are looked up by resolving, in the
context of the scope, what is written for them, and there is an answer exactly if
something is written. What is written is always the last thing that an annotation says,
whether the index was made from a list or by any number of merges. -/
theorem lookUps_agree (R : Resolvers Id τ μ) (index : Index) :
    index.Alike R .varType .varType .localVar
      (fun name => (index.localVariableType R name).run) (index.localVariableTypes R).run
    ∧ index.Alike R .ivarType .ivarType .instanceVar
      (fun name => (index.instanceVariableType R name).run) (index.instanceVariableTypes R).run
    ∧ index.Alike R .constType .constType .constant
      (fun path => (index.constantType R path).run) (index.constantTypes R).run
    ∧ (∀ name, (index.methodType R name).run = (index.methodExpr name).map (fun method =>
        ((R index.scope.resolver).resolveMethod method index.scope.context).run)
      ∧ IsLast (.methodType name) index.annotations (index.methodExpr name))
    ∧ (∀ slot : TypeSlot, (index.slotType R slot).run = (index.slotExpr slot).map (fun type =>
        ((R index.scope.resolver).resolveType type index.scope.context).run)
      ∧ IsLast slot.annotation index.annotations (index.slotExpr slot))
    ∧ ∀ place, (index.answer? R place).run = none ↔ index.content? place = none := by
  refine ⟨index.keeps_varTypes.alike, index.keeps_ivarTypes.alike, index.keeps_constTypes.alike,
    fun name => ⟨index.answer?_eq_map R (.method name), index.isLast_content? (.method name)⟩,
    fun slot => ⟨index.answer?_eq_map R (.slot slot), index.isLast_content? (.slot slot)⟩,
    fun place => ?_⟩
  show index.answer? R place = none ↔ _
  rw [answer?_eq_map, Option.map_eq_none_iff]

end Index

end ScopedAnnotations
