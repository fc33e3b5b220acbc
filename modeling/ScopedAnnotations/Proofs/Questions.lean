import Mathlib.Data.Finset.Card
import ScopedAnnotations.Proofs.Answer
import ScopedAnnotations.Session

/-!
# What a query costs

A counting resolver is told apart from the one it counts for by nothing but
the count. This module says what a query adds to it: one question if the place
that is looked up has an annotation, one for every key if a whole map is
resolved, and none for anything else (`Query.putsTo_answer`).

The count is a statement about the annotations alone. It does not mention how
they are stored, so a shadowed annotation has to be seen not to count, and the
number of entries in a map to be the number of different keys that were
declared (`Index.Keeps.size_eq`).
-/

namespace ScopedAnnotations

/-! ## Work that puts questions -/

/-- **Some work puts a number of questions to one resolver**, and none to any
other, whatever was asked before. -/
def PutsTo (resolver : ResolverId) (n : Nat) {α : Type} (work : StateM Calls α) : Prop :=
  ∀ (calls : Calls) (other : ResolverId),
    (work.run calls).run.2.count other = calls.count other + if resolver = other then n else 0

namespace PutsTo

variable {resolver : ResolverId} {n k : Nat} {α β : Type}

protected theorem pure (a : α) : PutsTo resolver 0 (pure a) :=
  fun calls other => (congrArg (calls.count other + ·) (ite_self 0)).symm

/-- The questions of two pieces of work add up. -/
theorem bind {work : StateM Calls α} {next : α → StateM Calls β} (hwork : PutsTo resolver n work)
    (hnext : ∀ a, PutsTo resolver k (next a)) : PutsTo resolver (n + k) (work >>= next) := by
  intro calls other
  show ((next (work.run calls).run.1).run (work.run calls).run.2).run.2.count other = _
  rw [hnext, hwork, Nat.add_assoc]
  by_cases h : resolver = other
  · rw [if_pos h, if_pos h, if_pos h]
  · rw [if_neg h, if_neg h, if_neg h]

theorem map {work : StateM Calls α} (hwork : PutsTo resolver n work) (f : α → β) :
    PutsTo resolver n (f <$> work) := by
  rw [← bind_pure_comp]
  exact hwork.bind (fun a => .pure (f a))

/-- One question for every element of a list. -/
theorem listMapM {f : α → StateM Calls β} (hf : ∀ a, PutsTo resolver 1 (f a)) (as : List α) :
    PutsTo resolver as.length (as.mapM f) := by
  induction as with
  | nil => exact .pure []
  | cons a as ih =>
    rw [List.mapM_cons, List.length_cons, Nat.add_comm]
    exact (hf a).bind (fun b => ih.bind (fun bs => .pure (b :: bs)))

/-- One question if there is something to ask about. -/
theorem optionMapM {f : α → StateM Calls β} (hf : ∀ a, PutsTo resolver 1 (f a)) (o : Option α) :
    PutsTo resolver o.toList.length (o.mapM f) := by
  cases o with
  | none => exact .pure none
  | some a => exact (hf a).map some

end PutsTo

section Counted

variable {τ μ : Type} (R : Resolvers Id τ μ)

/-- A type is one question, however much there is in it. -/
theorem Index.putsTo_resolveType (index : Index) (type : TypeExpr) :
    PutsTo index.scope.resolver 1 (index.resolveType R.counted type) :=
  fun calls other => calls.count_record index.scope.resolver other

/-- **A content is one question**, be it a type or a whole method; only a
module is none. -/
theorem ResolutionScope.putsTo_resolve (scope : ResolutionScope) {place : Place}
    (hplace : place ≠ .implements) (content : place.Content) :
    PutsTo scope.resolver 1 (scope.resolve R.counted place content) := by
  cases place with
  | implements => exact absurd rfl hplace
  | _ => exact fun calls other => calls.count_record scope.resolver other

end Counted

/-! ## Counting places -/

/-- The kinds whose types are kept in a map are those of the local variables, of
the instance variables and of the constants. -/
theorem Place.kind_eq_iff_ref (place : Place) :
    (place.kind = .varType ↔ ∃ name, .ref (.localVar name) = place)
      ∧ (place.kind = .ivarType ↔ ∃ name, .ref (.instanceVar name) = place)
      ∧ (place.kind = .constType ↔ ∃ path, .ref (.constant path) = place) := by
  rcases place with (_ | _ | _) | _ | (_ | _ | _ | _ | _ | _) | _ <;> simp [Place.kind]

/-- **A map keeps the types of one kind**: the places of the kind are those of its keys,
and it holds what the index holds there. -/
structure Index.Keeps (index : Index) {κ : Type} [Ord κ] [Std.TransOrd κ] (kind : Kind)
    (ref : κ → VariableRef) (types : Std.ExtTreeMap κ TypeExpr) : Prop where
  injective : Function.Injective ref
  kind_eq_iff : ∀ place : Place, place.kind = kind ↔ ∃ key, .ref (ref key) = place
  variableExpr_eq : ∀ key, index.variableExpr (ref key) = types[key]?

namespace Index

/-- **How many places of a kind are declared**: the number of different keys of
the annotations of that kind. -/
def declaredCount (index : Index) (kind : Kind) : Nat :=
  ((index.annotations.filter (·.kind = kind)).filterMap Annotation.place?).toFinset.card

/-- Whether a place is declared: one if it is, and none if it is not. -/
def presence (index : Index) (place : Place) : Nat :=
  if ∃ a ∈ index.annotations, a.place? = some place then 1 else 0

/-- An index holds something in a place exactly if an annotation is about the
place, shadowed or not. -/
theorem content?_ne_none_iff (index : Index) (place : Place) :
    index.content? place ≠ none ↔ ∃ a ∈ index.annotations, a.place? = some place := by
  rw [Ne, content?_eq_lastContent?, lastContent?_eq_none_iff, not_forall_not]
  constructor
  · rintro ⟨content, hmem⟩
    exact ⟨_, hmem, Annotation.place?_eq_some_iff.mpr ⟨content, rfl⟩⟩
  · rintro ⟨a, hmem, ha⟩
    obtain ⟨content, rfl⟩ := Annotation.place?_eq_some_iff.mp ha
    exact ⟨content, hmem⟩

theorem length_toList_content? (index : Index) (place : Place) :
    (index.content? place).toList.length = index.presence place := by
  have hdeclared := index.content?_ne_none_iff place
  cases h : index.content? place with
  | none => exact (if_neg fun hex => hdeclared.mpr hex h).symm
  | some content => exact (if_pos (hdeclared.mp (h ▸ nofun))).symm

namespace Keeps

variable {index : Index} {κ : Type} [Ord κ] [Std.TransOrd κ] [Std.LawfulEqOrd κ] {kind : Kind}
  {ref : κ → VariableRef} {types : Std.ExtTreeMap κ TypeExpr}

omit [Std.LawfulEqOrd κ] in
/-- The keys of the map are those that some annotation declares, shadowed or not. -/
theorem mem_iff (h : index.Keeps kind ref types) (key : κ) :
    key ∈ types ↔ ∃ a ∈ index.annotations, a.place? = some (.ref (ref key)) := by
  rw [← index.content?_ne_none_iff]
  show key ∈ types ↔ index.variableExpr (ref key) ≠ none
  rw [h.variableExpr_eq, Std.ExtTreeMap.mem_iff_isSome_getElem?, Option.isSome_iff_ne_none]

/-- **There are as many keys as different ones were declared**, in the map that keeps the
types as in any other with the same keys. -/
theorem size_eq (h : index.Keeps kind ref types) {ν : Type} {map : Std.ExtTreeMap κ ν}
    (hkeys : ∀ key, key ∈ map ↔ key ∈ types) : map.size = index.declaredCount kind := by
  have hplaces : ((index.annotations.filter (·.kind = kind)).filterMap Annotation.place?).toFinset
      = (map.keys.map fun key => Place.ref (ref key)).toFinset := by
    ext p
    rw [List.mem_toFinset, List.mem_toFinset, List.mem_filterMap, List.mem_map]
    constructor
    · rintro ⟨a, ha, hp⟩
      obtain ⟨hmem, hdec⟩ := List.mem_filter.mp ha
      obtain ⟨content, rfl⟩ := Annotation.place?_eq_some_iff.mp hp
      obtain ⟨key, rfl⟩ := (h.kind_eq_iff p).mp
        ((Place.kind_annotation p content).symm.trans (of_decide_eq_true hdec))
      have hkey := (hkeys key).mpr ((h.mem_iff key).mpr ⟨_, hmem, hp⟩)
      exact ⟨key, Std.ExtTreeMap.mem_keys.mpr hkey, rfl⟩
    · rintro ⟨key, hkey, rfl⟩
      obtain ⟨a, hmem, ha⟩ := (h.mem_iff key).mp ((hkeys key).mp (Std.ExtTreeMap.mem_keys.mp hkey))
      refine ⟨a, List.mem_filter.mpr ⟨hmem, decide_eq_true ?_⟩, ha⟩
      obtain ⟨content, rfl⟩ := Annotation.place?_eq_some_iff.mp ha
      rw [Place.kind_annotation]
      exact (h.kind_eq_iff _).mpr ⟨key, rfl⟩
  have hinjective : Function.Injective fun key => Place.ref (ref key) :=
    Function.Injective.comp (fun _ _ => Place.ref.inj) h.injective
  unfold declaredCount
  rw [hplaces, List.toFinset_card_of_nodup (Std.ExtTreeMap.nodup_keys.map hinjective),
    List.length_map, Std.ExtTreeMap.length_keys]

end Keeps

theorem keeps_varTypes (index : Index) :
    index.Keeps .varType .localVar index.classified.varTypes where
  injective _ _ := VariableRef.localVar.inj
  kind_eq_iff place := place.kind_eq_iff_ref.1
  variableExpr_eq _ := rfl

theorem keeps_ivarTypes (index : Index) :
    index.Keeps .ivarType .instanceVar index.classified.ivarTypes where
  injective _ _ := VariableRef.instanceVar.inj
  kind_eq_iff place := place.kind_eq_iff_ref.2.1
  variableExpr_eq _ := rfl

theorem keeps_constTypes (index : Index) :
    index.Keeps .constType .constant index.classified.constTypes where
  injective _ _ := VariableRef.constant.inj
  kind_eq_iff place := place.kind_eq_iff_ref.2.2
  variableExpr_eq _ := rfl

end Index

/-! ## Queries -/

/-- **What a query costs**: one question for a look-up that finds something,
one for every declared key if a whole map is resolved, and none for whatever
is answered from the annotations as written. -/
def Query.questions (index : Index) : Query → Nat
  | variableType ref => index.presence (.ref ref)
  | methodType name => index.presence (.method name)
  | slotType slot => index.presence (.slot slot)
  | localVariableTypes => index.declaredCount .varType
  | instanceVariableTypes => index.declaredCount .ivarType
  | constantTypes => index.declaredCount .constType
  | variableExpr _ | methodExpr _ | slotExpr _ | implementedModule | dynamicDeclarations
  | dynamicInstanceMethods | dynamicModuleMethods | contains _ | any _ | size | isEmpty
  | annotations | kinds | context | resolverIs _ | describe => 0

section Queries

variable {τ μ : Type} (R : Resolvers Id τ μ) (index : Index)

theorem Index.putsTo_answer? (place : Place) (hplace : place ≠ .implements) :
    PutsTo index.scope.resolver (index.presence place) (index.answer? R.counted place) := by
  rw [answer?_eq_mapM, ← length_toList_content?]
  exact .optionMapM (index.scope.putsTo_resolve R hplace) _

/-- Resolving a map is one question for each of its entries. -/
theorem Index.putsTo_resolveAll {κ : Type} [Ord κ] [Std.TransOrd κ]
    (types : Std.ExtTreeMap κ TypeExpr) :
    PutsTo index.scope.resolver types.toList.length (index.resolveAll R.counted types) := by
  have hentry (entry : κ × TypeExpr) : PutsTo index.scope.resolver 1
      (do let answer ← index.resolveType R.counted entry.2; return (entry.1, answer)) :=
    (index.putsTo_resolveType R entry.2).bind (fun _ => .pure _)
  exact (PutsTo.listMapM hentry types.toList).bind (fun _ => .pure _)

/-- **A snapshot is one question for every declared key.** -/
theorem Index.putsTo_snapshot {κ : Type} [Ord κ] [Std.TransOrd κ] [Std.LawfulEqOrd κ]
    {kind : Kind} {ref : κ → VariableRef} {types : Std.ExtTreeMap κ TypeExpr}
    (h : index.Keeps kind ref types) :
    PutsTo index.scope.resolver (index.declaredCount kind) (index.resolveAll R.counted types) := by
  rw [← h.size_eq (fun _ => Iff.rfl), ← Std.ExtTreeMap.length_toList]
  exact index.putsTo_resolveAll R types

/-- **A query puts as many questions as it costs**, to the resolver of the
index it is put to and to no other. -/
theorem Query.putsTo_answer (query : Query) :
    PutsTo index.scope.resolver (query.questions index) (query.answer R.counted index) := by
  cases query with
  | variableType ref => exact (index.putsTo_answer? R (.ref ref) nofun).map Reply.type
  | methodType name => exact (index.putsTo_answer? R (.method name) nofun).map Reply.method
  | slotType slot => exact (index.putsTo_answer? R (.slot slot) nofun).map Reply.type
  | localVariableTypes =>
    exact (index.putsTo_snapshot R index.keeps_varTypes).map Reply.variableTypes
  | instanceVariableTypes =>
    exact (index.putsTo_snapshot R index.keeps_ivarTypes).map Reply.variableTypes
  | constantTypes =>
    exact (index.putsTo_snapshot R index.keeps_constTypes).map Reply.constantTypes
  | _ => exact .pure _

end Queries

end ScopedAnnotations
