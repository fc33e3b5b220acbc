import Mathlib.Logic.Basic
import Mathlib.Tactic.FinCases
import ScopedAnnotations.Proofs.Answer
import ScopedAnnotations.Proofs.Layering

/-!
# Nesting is overlaying

The index of a nested block is made by sorting a list from scratch: what is
inherited, followed by what is new. Asked anything, it behaves as though the
inner index lay over the outer one, so that the outer one is seen wherever the
inner one is silent – except that what was said of a block is not seen through
from one block to the next.

The two descriptions differ in what they mention. The list mentions every
annotation, shadowed or dropped; the overlay mentions answers only. They meet
in `Index.content?_inherited_append`, place by place, and the look-ups, the
snapshots and the rest of `Index.Overlays` are read off from there.
-/

namespace ScopedAnnotations

/-- Whether a place speaks of one block alone. -/
def Place.isBlockScoped (place : Place) : Bool := place.kind.isBlockScoped

theorem Place.isBlockScoped_iff {place : Place} :
    place.isBlockScoped = true ↔ place ∈ [slot .blockType, .slot .breakType] := by
  rcases place with (_ | _ | _) | _ | (_ | _ | _ | _ | _ | _) | _ <;>
    simp [isBlockScoped, kind, Kind.isBlockScoped]

/-- Of places that were cleared, only those of a block are empty for it. -/
theorem Classified.content?_withoutBlock (classified : Classified) (place : Place) :
    classified.withoutBlock.content? place
      = if place.isBlockScoped then none else classified.content? place := by
  rcases place with (_ | _ | _) | _ | (_ | _ | _ | _ | _ | _) | _ <;> rfl

/-- **What is inherited says the same as before, except of a block**, of which
it says nothing. -/
theorem lastContent?_filter_not_isBlockScoped (as : List Annotation) (place : Place) :
    lastContent? (as.filter fun a => !a.isBlockScoped) place
      = if place.isBlockScoped then none else lastContent? as place := by
  rw [← Classified.content?_ofList, ← Classified.content?_ofList,
    Classified.ofList_filter_not_isBlockScoped, Classified.content?_withoutBlock]

/-- Dynamic declarations are inherited. -/
theorem filterMap_dynamicNames?_filter (as : List Annotation) :
    (as.filter fun a => !a.isBlockScoped).filterMap Annotation.dynamicNames?
      = as.filterMap Annotation.dynamicNames? := by
  rw [← Classified.dynamics_ofList, ← Classified.dynamics_ofList,
    Classified.ofList_filter_not_isBlockScoped]
  rfl

namespace Index

/-- **Place by place, the inner index lies over the outer one**, and the outer
one does not show where the place is one of a block's. -/
theorem content?_inherited_append (outer inner : Index) (scope : ResolutionScope)
    (place : Place) :
    (build (outer.inherited ++ inner.annotations) scope).content? place
      = if place.isBlockScoped then inner.content? place
        else (inner.content? place).or (outer.content? place) := by
  rw [content?_eq_lastContent?, annotations_build, lastContent?_append, inherited,
    lastContent?_filter_not_isBlockScoped, content?_eq_lastContent? inner,
    content?_eq_lastContent? outer]
  by_cases hp : place.isBlockScoped = true
  · rw [if_pos hp, if_pos hp, Option.or_none]
  · rw [if_neg hp, if_neg hp]

/-- All is inherited but the annotations of a block. -/
theorem length_inherited (outer : Index) :
    outer.inherited.length = outer.size - outer.annotations.countP Annotation.isBlockScoped := by
  have hkept : outer.annotations.countP (fun a => decide ¬a.isBlockScoped = true)
      = outer.inherited.length := by
    unfold inherited
    rw [← List.countP_eq_length_filter]
    exact List.countP_congr (fun a _ => by simp)
  have hall := List.length_eq_countP_add_countP Annotation.isBlockScoped (l := outer.annotations)
  unfold size
  omega

variable {τ μ : Type}

/-- **One index lies over another.** Asked anything, `merged` answers as the
overlay of `inner` over `outer` does, with the two exceptions that a block's
own annotations are its own. -/
structure Overlays (R : Resolvers Id τ μ) (merged outer inner : Index) : Prop where
  localVariableType : ∀ name, (merged.localVariableType R name).run
    = (inner.localVariableType R name).run.or (outer.localVariableType R name).run
  instanceVariableType : ∀ name, (merged.instanceVariableType R name).run
    = (inner.instanceVariableType R name).run.or (outer.instanceVariableType R name).run
  constantType : ∀ path, (merged.constantType R path).run
    = (inner.constantType R path).run.or (outer.constantType R path).run
  methodType : ∀ name, (merged.methodType R name).run
    = (inner.methodType R name).run.or (outer.methodType R name).run
  slotType : ∀ slot ∈ [TypeSlot.returnType, .selfType, .instanceType, .moduleType],
    (merged.slotType R slot).run = (inner.slotType R slot).run.or (outer.slotType R slot).run
  implementedModule : merged.implementedModule
    = inner.implementedModule.or outer.implementedModule
  /-- What is said of a block is not seen through. -/
  blockSlotType : ∀ slot ∈ [TypeSlot.blockType, .breakType],
    (merged.slotType R slot).run = (inner.slotType R slot).run
  localVariableTypes : ∀ name : Name, (merged.localVariableTypes R).run[name]?
    = (inner.localVariableTypes R).run[name]?.or (outer.localVariableTypes R).run[name]?
  instanceVariableTypes : ∀ name : Name, (merged.instanceVariableTypes R).run[name]?
    = (inner.instanceVariableTypes R).run[name]?.or (outer.instanceVariableTypes R).run[name]?
  constantTypes : ∀ path : QualifiedName, (merged.constantTypes R).run[path]?
    = (inner.constantTypes R).run[path]?.or (outer.constantTypes R).run[path]?
  dynamicDeclarations : merged.dynamicDeclarations
    = outer.dynamicDeclarations ++ inner.dynamicDeclarations
  contains : ∀ a, merged.contains a = true
    ↔ inner.contains a = true ∨ outer.contains a = true ∧ a.isBlockScoped = false
  size : merged.size
    = outer.size - outer.annotations.countP Annotation.isBlockScoped + inner.size

/-- Resolved or not, the inner index lies over the outer one. -/
theorem answer?_inherited_append (R : Resolvers Id τ μ) {outer inner : Index}
    (hscope : outer.scope = inner.scope) (place : Place) :
    ((build (outer.inherited ++ inner.annotations) outer.scope).answer? R place).run
      = if place.isBlockScoped then (inner.answer? R place).run
        else (inner.answer? R place).run.or (outer.answer? R place).run := by
  rw [answer?_eq_map, answer?_eq_map R inner, answer?_eq_map R outer,
    content?_inherited_append, scope_build, ← hscope]
  by_cases hp : place.isBlockScoped = true
  · rw [if_pos hp, if_pos hp]
  · rw [if_neg hp, if_neg hp, Option.map_or]
    rfl

/-- **Merging overlays.** Under one scope, the index of a nested block always
exists, and it is the inner index over the outer one. -/
theorem merge_overlays (R : Resolvers Id τ μ) (outer inner : Index)
    (same : outer.scope.sameAs inner.scope = true) :
    ∃ merged, outer.merge inner = .ok merged ∧ Overlays R merged outer inner := by
  have hscope : outer.scope = inner.scope := ResolutionScope.sameAs_iff.mp same
  have hover := answer?_inherited_append R hscope
  refine ⟨_, merge_eq_ok_iff.mpr ⟨hscope, rfl⟩, ?_⟩
  exact
    { localVariableType := fun name => hover (.ref (.localVar name))
      instanceVariableType := fun name => hover (.ref (.instanceVar name))
      constantType := fun path => hover (.ref (.constant path))
      methodType := fun name => hover (.method name)
      slotType := by
        intro slot hslot
        have h := hover (.slot slot)
        fin_cases hslot <;> exact h
      implementedModule := hover .implements
      blockSlotType := by
        intro slot hslot
        have h := hover (.slot slot)
        fin_cases hslot <;> exact h
      localVariableTypes := fun name => by
        rw [getElem?_localVariableTypes, getElem?_localVariableTypes,
          getElem?_localVariableTypes]
        exact hover (.ref (.localVar name))
      instanceVariableTypes := fun name => by
        rw [getElem?_instanceVariableTypes, getElem?_instanceVariableTypes,
          getElem?_instanceVariableTypes]
        exact hover (.ref (.instanceVar name))
      constantTypes := fun path => by
        rw [getElem?_constantTypes, getElem?_constantTypes, getElem?_constantTypes]
        exact hover (.ref (.constant path))
      dynamicDeclarations := by
        rw [dynamicDeclarations_eq, dynamicDeclarations_eq, dynamicDeclarations_eq,
          annotations_build, List.filterMap_append, inherited, filterMap_dynamicNames?_filter]
      contains := fun a => by
        unfold Index.contains
        rw [annotations_build, decide_eq_true_iff, decide_eq_true_iff, decide_eq_true_iff,
          List.mem_append, inherited, List.mem_filter, Bool.not_eq_true']
        exact or_comm
      size := by
        unfold Index.size
        rw [annotations_build, List.length_append, length_inherited]
        rfl }

/-- A block that redeclares one variable of two, in a block with a type of its
own. -/
theorem merge_overlays_redeclared :
    let outer := build [.varType ⟨1⟩ .void, .blockType .nil, .varType ⟨2⟩ .any,
      .dynamic [.ofInstance ⟨3⟩], .varType ⟨1⟩ .bool] ⟨⟨0⟩, .root⟩
    let inner := build [.varType ⟨1⟩ .nil, .dynamic [.ofModule ⟨4⟩]] ⟨⟨0⟩, .root⟩
    outer.scope.sameAs inner.scope = true
      ∧ ∃ merged, outer.merge inner = .ok merged
        ∧ Overlays (fun _ => Resolver.echo) merged outer inner := by
  intro outer inner
  have same : outer.scope.sameAs inner.scope = true := by decide
  exact ⟨same, merge_overlays (fun _ => Resolver.echo) outer inner same⟩

end Index

end ScopedAnnotations
