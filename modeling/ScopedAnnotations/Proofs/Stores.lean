import Mathlib.Algebra.BigOperators.Group.List.Basic
import Mathlib.Algebra.Ring.Nat
import ScopedAnnotations.Index.Merge
import ScopedAnnotations.Proofs.Place

/-!
# One annotation, one place

There are twelve kinds of annotations, and what is filed has a field for each of them.
The field that an annotation goes to is chosen where it is filed, and its kind is told
somewhere else. Six of the fields are slots for a type, so that nothing but their names
keeps them apart: an annotation that went to the wrong one would be a type in a place for
types, and would be missed only by someone who asks for it. This module says that the two
choices agree, whatever was filed before.

The fields are read as one *store* for every kind (`Classified.store`). An annotation
changes the store of its kind and leaves the other stores as they were, with all that is in
them; and in the store of its kind it writes its own place and leaves the other keys
(`Classified.Filed`). The first of the two is where kinds are compared with fields
(`Classified.store_file_of_ne`), and the second is what is known of places.

Two things follow. What is kept of a block is changed by annotations of a block alone, and
these are the annotations that a merge leaves out. And the occupied places can be counted
store by store, in a sum of which one term changes (`Classified.occupied_file_add`): there
is one more of them if the place was free, and there are as many as before if it was not.
-/

namespace ScopedAnnotations

/-- **What the annotations of a kind are filed in**: a map if there is an answer for
every key, a slot if there is one altogether, and a list for what piles up. -/
abbrev Kind.Store : Kind → Type
  | varType | ivarType => Std.ExtTreeMap Name TypeExpr
  | constType => Std.ExtTreeMap QualifiedName TypeExpr
  | methodType => Std.ExtTreeMap Name MethodType
  | blockType | breakType | returnType | selfType | instanceType | moduleType => Option TypeExpr
  | implements => Option QualifiedName
  | dynamic => Array (List DynamicName)

/-- The store of a kind. -/
def Classified.store (classified : Classified) : (kind : Kind) → kind.Store
  | .varType => classified.varTypes
  | .ivarType => classified.ivarTypes
  | .constType => classified.constTypes
  | .methodType => classified.methodTypes
  | .blockType => classified.blockType
  | .breakType => classified.breakType
  | .returnType => classified.returnType
  | .selfType => classified.selfType
  | .instanceType => classified.instanceType
  | .moduleType => classified.moduleType
  | .implements => classified.implements
  | .dynamic => classified.dynamics

/-- What a store of the right kind holds in a place: what a map has at the key of the
place, and all there is in a slot. -/
def Place.read : (place : Place) → place.kind.Store → Option place.Content
  | ref (.localVar name), types => Std.ExtTreeMap.get? types name
  | ref (.instanceVar name), types => Std.ExtTreeMap.get? types name
  | ref (.constant path), types => Std.ExtTreeMap.get? types path
  | method name, methods => Std.ExtTreeMap.get? methods name
  | slot .blockType, type | slot .breakType, type | slot .returnType, type
  | slot .selfType, type | slot .instanceType, type | slot .moduleType, type => type
  | implements, path => path

/-- How many places of a store are occupied: the keys of a map, and a slot if there is
something in it. Every dynamic declaration has a place to itself. -/
def Kind.count : (kind : Kind) → kind.Store → Nat
  | varType, types | ivarType, types => types.size
  | constType, types => types.size
  | methodType, methods => methods.size
  | blockType, type | breakType, type | returnType, type | selfType, type
  | instanceType, type | moduleType, type => type.toList.length
  | implements, path => path.toList.length
  | dynamic, declarations => declarations.size

theorem Kind.nodup_all : all.Nodup := by decide

theorem Annotation.kind_eq_dynamic_iff {a : Annotation} :
    a.kind = .dynamic ↔ ∃ names, a = .dynamic names := by
  cases a with
  | dynamic names => exact iff_of_true rfl ⟨names, rfl⟩
  | _ => exact iff_of_false nofun (fun ⟨_, h⟩ => by cases h)

theorem Kind.isBlockScoped_iff {kind : Kind} :
    kind.isBlockScoped = true ↔ kind = .blockType ∨ kind = .breakType := by
  cases kind <;> decide

namespace Classified

/-- **How many places are occupied** altogether. -/
def occupied (classified : Classified) : Nat :=
  (Kind.all.map fun kind => kind.count (classified.store kind)).sum

/-- Whether an annotation would be the first one in its place. A dynamic declaration
always is. -/
def Free (classified : Classified) (a : Annotation) : Prop :=
  a.kind = .dynamic
    ∨ ∃ place, a.place? = some place ∧ place.read (classified.store place.kind) = none

/-- **One annotation is filed**: what is there `before` and what is there `after` differ
in the place of the annotation and in nothing else. -/
structure Filed (a : Annotation) (before after : Classified) : Prop where
  /-- What the annotation says is in its place, which is one of the store of its kind. -/
  written : ∀ place, a.place? = some place → ∃ content, a = place.annotation content
    ∧ place.kind = a.kind ∧ place.read (after.store place.kind) = some content
  /-- A dynamic declaration is put behind those that were there. -/
  appended : a.place? = none → ∃ names, a = .dynamic names
    ∧ after.store .dynamic = (before.store .dynamic).push names
  /-- The other keys of the store are as before. -/
  read_eq : ∀ place, a.place? ≠ some place →
    place.read (after.store place.kind) = place.read (before.store place.kind)
  /-- So are the other stores, and all that is in them. -/
  store_eq : ∀ kind, kind ≠ a.kind → after.store kind = before.store kind
  /-- A place that was free is occupied. -/
  occupied_of_free : before.Free a → after.occupied = before.occupied + 1
  /-- A place that was occupied stays so. -/
  occupied_of_not_free : ¬before.Free a → after.occupied = before.occupied

/-! ## Which store is written -/

/-- A place is looked up in the store of its kind. -/
theorem content?_eq_read (classified : Classified) (place : Place) :
    classified.content? place = place.read (classified.store place.kind) := by
  rcases place with (_ | _ | _) | _ | (_ | _ | _ | _ | _ | _) | _ <;> rfl

/-- **No store but that of its kind is touched** when an annotation is filed. -/
theorem store_file_of_ne (classified : Classified) {a : Annotation} {kind : Kind}
    (h : kind ≠ a.kind) : (classified.file a).store kind = classified.store kind := by
  -- Every annotation is filed in one field, and the one kind whose store this field is
  -- has to be its own.
  cases a <;> cases kind <;> first | rfl | exact absurd rfl h

theorem store_file_dynamic (classified : Classified) (names : List DynamicName) :
    (classified.file (.dynamic names)).store .dynamic
      = (classified.store .dynamic).push names := rfl

/-- **What is kept of a block** is changed, by some annotation from some state, exactly
if the annotation is one of a block. -/
theorem isBlockScoped_iff_exists_ne {a : Annotation} :
    a.kind.isBlockScoped = true ↔ ∃ classified : Classified,
      (classified.file a).blockType ≠ classified.blockType
        ∨ (classified.file a).breakType ≠ classified.breakType := by
  constructor
  · -- Where nothing was filed, nothing can stay as it was.
    intro h
    cases a with
    | blockType type => exact ⟨empty, .inl nofun⟩
    | breakType type => exact ⟨empty, .inr nofun⟩
    | _ => cases h
  · rintro ⟨classified, h⟩
    rw [Kind.isBlockScoped_iff]
    refine h.imp (fun hblock => ?_) (fun hbreak => ?_)
    · by_contra hkind
      exact hblock (classified.store_file_of_ne (Ne.symm hkind))
    · by_contra hkind
      exact hbreak (classified.store_file_of_ne (Ne.symm hkind))

/-! ## How many places are occupied -/

/-- An insertion makes a map larger by one, unless it has the key. -/
theorem size_insert_eq_add {κ ν : Type} [Ord κ] [Std.TransOrd κ] (map : Std.ExtTreeMap κ ν)
    (key : κ) (value : ν) :
    (map.insert key value).size = map.size + if map[key]? = none then 1 else 0 := by
  rw [Std.ExtTreeMap.size_insert]
  by_cases h : key ∈ map
  · rw [if_pos (Std.ExtTreeMap.mem_iff_contains.mp h),
      if_neg (Option.isSome_iff_ne_none.mp (Std.ExtTreeMap.mem_iff_isSome_getElem?.mp h))]
    rfl
  · rw [if_neg (fun hc => h (Std.ExtTreeMap.mem_iff_contains.mpr hc)),
      if_pos (Std.ExtTreeMap.getElem?_eq_none h)]

/-- So does an assignment to a slot, unless there is something in it. -/
theorem length_toList_some_eq_add {α : Type} (old : Option α) (new : α) :
    (some new).toList.length = old.toList.length + if old = none then 1 else 0 := by
  cases old <;> rfl

/-- **Only one store counts**: what a sum over all stores gains by filing an annotation
is what the store of its kind gains. -/
theorem occupied_file_add (classified : Classified) (a : Annotation) :
    (classified.file a).occupied + a.kind.count (classified.store a.kind)
      = classified.occupied + a.kind.count ((classified.file a).store a.kind) := by
  have hothers :
      (Kind.all.erase a.kind).map (fun kind => kind.count ((classified.file a).store kind))
        = (Kind.all.erase a.kind).map (fun kind => kind.count (classified.store kind)) := by
    refine List.map_congr_left (fun kind hkind => ?_)
    rw [classified.store_file_of_ne (Kind.nodup_all.mem_erase_iff.mp hkind).1]
  unfold occupied
  rw [← List.sum_map_erase _ (Kind.mem_all a.kind), ← List.sum_map_erase _ (Kind.mem_all a.kind),
    hothers]
  omega

variable {a : Annotation} {place : Place}

/-- The store of its kind gains a place by an annotation that is the first one there. -/
theorem count_store_file (classified : Classified) (h : a.place? = some place) :
    a.kind.count ((classified.file a).store a.kind)
      = a.kind.count (classified.store a.kind)
        + if classified.content? place = none then 1 else 0 := by
  cases a with
  | varType name type => cases h; exact size_insert_eq_add classified.varTypes name type
  | ivarType name type => cases h; exact size_insert_eq_add classified.ivarTypes name type
  | constType path type => cases h; exact size_insert_eq_add classified.constTypes path type
  | methodType name type => cases h; exact size_insert_eq_add classified.methodTypes name type
  | dynamic names => cases h
  | _ new => cases h; exact length_toList_some_eq_add _ new

theorem occupied_file (classified : Classified) (h : a.place? = some place) :
    (classified.file a).occupied
      = classified.occupied + if classified.content? place = none then 1 else 0 := by
  have hsum := classified.occupied_file_add a
  rw [classified.count_store_file h] at hsum
  omega

theorem occupied_file_dynamic (classified : Classified) (names : List DynamicName) :
    (classified.file (.dynamic names)).occupied = classified.occupied + 1 := by
  have hsum := classified.occupied_file_add (.dynamic names)
  have hpush : ((classified.store .dynamic).push names).size
      = (classified.store .dynamic).size + 1 := Array.size_push names
  change _ + (classified.store .dynamic).size
    = _ + ((classified.store .dynamic).push names).size at hsum
  omega

theorem filed_file (classified : Classified) (a : Annotation) :
    Filed a classified (classified.file a) where
  written := by
    intro place hplace
    obtain ⟨content, rfl⟩ := Annotation.place?_eq_some_iff.mp hplace
    refine ⟨content, rfl, (place.kind_annotation content).symm, ?_⟩
    rw [← content?_eq_read, content?_file, Annotation.content?_annotation, Option.some_or]
  appended := by
    intro hplace
    obtain ⟨names, rfl⟩ := Annotation.place?_eq_none_iff.mp hplace
    exact ⟨names, rfl, classified.store_file_dynamic names⟩
  read_eq := by
    intro place hplace
    rw [← content?_eq_read, ← content?_eq_read, content?_file,
      Annotation.content?_eq_none_iff_place?.mpr hplace, Option.none_or]
  store_eq := fun kind h => classified.store_file_of_ne h
  occupied_of_free := by
    rintro (hdynamic | ⟨place, hplace, hfree⟩)
    · obtain ⟨names, rfl⟩ := Annotation.kind_eq_dynamic_iff.mp hdynamic
      exact classified.occupied_file_dynamic names
    · rw [classified.occupied_file hplace, content?_eq_read, if_pos hfree]
  occupied_of_not_free := by
    intro hfree
    cases hplace : a.place? with
    | none =>
      have hnames := Annotation.place?_eq_none_iff.mp hplace
      have hdynamic := Annotation.kind_eq_dynamic_iff.mpr hnames
      exact absurd (.inl hdynamic) hfree
    | some place =>
      have htaken : classified.content? place ≠ none := by
        rw [content?_eq_read]
        exact fun h => hfree (.inr ⟨place, hplace, h⟩)
      rw [classified.occupied_file hplace, if_neg htaken, Nat.add_zero]

/-- **Filing writes one place.** Whatever was filed before, an annotation goes to the store
of its kind, to its own key if there are keys, and a dynamic declaration goes to the end of
the list; the other keys and the other stores are as they were. There is one more place
occupied if the place was free, and as many as before if it was not (`Filed`).

The annotations that can change what is kept of a block are those of a block, and it is these
that a merge leaves out. -/
theorem file_writes_one_place :
    (∀ (classified : Classified) (a : Annotation), Filed a classified (classified.file a))
    ∧ (∀ a : Annotation, a.kind.isBlockScoped = true ↔ ∃ classified : Classified,
      (classified.file a).blockType ≠ classified.blockType
        ∨ (classified.file a).breakType ≠ classified.breakType)
    ∧ ∀ outer inner : Index, outer.scope = inner.scope →
      ∃ merged, outer.merge inner = .ok merged ∧ merged.annotations
        = (outer.annotations.filter fun a => !a.kind.isBlockScoped) ++ inner.annotations := by
  refine ⟨filed_file, fun a => isBlockScoped_iff_exists_ne, fun outer inner hscope => ?_⟩
  exact ⟨_, Index.merge_eq_ok_iff.mpr ⟨hscope, rfl⟩, rfl⟩

/-- A local variable is given a type again, beside an instance variable of the same name, and
then the types of two blocks meet. -/
theorem file_writes_one_place_again :
    let before := Classified.ofList [.varType ⟨1⟩ .void, .ivarType ⟨1⟩ .any, .dynamic []]
    let after := before.file (.varType ⟨1⟩ .bool)
    let outer := Index.build [.varType ⟨1⟩ .void, .blockType .nil, .breakType .any] ⟨⟨0⟩, .root⟩
    let inner := Index.build [.blockType .bool] ⟨⟨0⟩, .root⟩
    after.varTypes[(⟨1⟩ : Name)]? = some .bool ∧ after.ivarTypes = before.ivarTypes
      ∧ after.dynamics = before.dynamics ∧ after.occupied = before.occupied
      ∧ (after.file (.dynamic [])).occupied = after.occupied + 1
      ∧ ∃ merged, outer.merge inner = .ok merged
        ∧ merged.annotations = [.varType ⟨1⟩ .void, .blockType .bool] := by
  intro before after outer inner
  obtain ⟨hfiled, -, hmerge⟩ := file_writes_one_place
  have hagain := hfiled before (.varType ⟨1⟩ .bool)
  have htaken : ¬before.Free (.varType ⟨1⟩ .bool) := by
    rintro (hkind | ⟨place, hplace, hfree⟩)
    · cases hkind
    · cases hplace
      exact absurd hfree (by decide)
  obtain ⟨content, hcontent, -, hread⟩ := hagain.written (.ref (.localVar ⟨1⟩)) rfl
  cases hcontent
  exact ⟨hread, hagain.store_eq .ivarType nofun, hagain.store_eq .dynamic nofun,
    hagain.occupied_of_not_free htaken, (hfiled after (.dynamic [])).occupied_of_free (.inl rfl),
    hmerge outer inner rfl⟩

end Classified

end ScopedAnnotations
