import ScopedAnnotations.Proofs.Bracketing

/-!
# Dynamic methods, sorted and put back

Everything else that is said of a scope can be said again, and then the first time
does not count any more. Dynamic declarations count every time. What an index has
of them is kept as it was written, declaration by declaration, and is shown in two
lists of names besides, one for each side of the module. This module says that
nothing is lost on the way to the two lists, nothing is counted twice and nothing
ends up on the wrong side.

Each of the two lists is easily seen to be right about what it has. That together
they have everything is another matter, and it is said by undoing the sorting. The
sides of the methods, in the order of the declarations, tell from which list the
next name is to be taken, and taking them so gives back the declared methods
(`DynamicName.replay`). It succeeds only if neither list is left with names that
nobody asked for, and whatever it succeeds on are the sorted methods of what it
gives back (`DynamicName.replay_eq_some_iff`).

Of the annotations, nothing but the dynamic declarations matters, so that nothing is
lost by merging either. What is left out of a merge are annotations of other kinds.
-/

namespace ScopedAnnotations

namespace DynamicName

/-- **The names on one side**, in order and with repetitions. -/
def namesOn (side : DynamicScope) (methods : List DynamicName) : List Name :=
  (methods.filter fun method => decide (method.scope = side)).map name

/-- **Put sorted methods back in order.** The sides say, method by method, from which
of the two lists of names the next one is to be taken. There is no result unless
both lists come to their end together with the sides. -/
def replay : (sides : List DynamicScope) → (onInstance onModule : List Name) →
    Option (List DynamicName)
  | [], [], [] => some []
  | .onInstance :: sides, name :: onInstance, onModule =>
    (replay sides onInstance onModule).map (ofInstance name :: ·)
  | .onModule :: sides, onInstance, name :: onModule =>
    (replay sides onInstance onModule).map (ofModule name :: ·)
  | _, _, _ => none

theorem namesOn_flatMap {α : Type} (side : DynamicScope) (f : α → List DynamicName) (xs : List α) :
    namesOn side (xs.flatMap f) = xs.flatMap fun x => namesOn side (f x) := by
  unfold namesOn
  rw [List.filter_flatMap, List.map_flatMap]

/-- **Replaying undoes sorting.** -/
theorem replay_namesOn (methods : List DynamicName) :
    replay (methods.map scope) (namesOn .onInstance methods) (namesOn .onModule methods)
      = some methods := by
  induction methods with
  | nil => rfl
  | cons method methods ih =>
    obtain ⟨name, side⟩ := method
    -- The name is the first one on its side, and no name on the other.
    cases side with
    | onInstance => exact congrArg (Option.map (ofInstance name :: ·)) ih
    | onModule => exact congrArg (Option.map (ofModule name :: ·)) ih

/-- **Sorting undoes replaying.** What is given back are methods of the sides that
were given, and the two lists of names are theirs. -/
theorem namesOn_of_replay_eq_some {sides : List DynamicScope} {onInstance onModule : List Name}
    {methods : List DynamicName} (h : replay sides onInstance onModule = some methods) :
    methods.map scope = sides
      ∧ namesOn .onInstance methods = onInstance ∧ namesOn .onModule methods = onModule := by
  fun_induction replay sides onInstance onModule generalizing methods with
  | case1 =>
    cases h
    exact ⟨rfl, rfl, rfl⟩
  | case2 sides name onInstance onModule ih =>
    obtain ⟨rest, hrest, rfl⟩ := Option.map_eq_some_iff.mp h
    obtain ⟨rfl, rfl, rfl⟩ := ih hrest
    exact ⟨rfl, rfl, rfl⟩
  | case3 sides onInstance name onModule ih =>
    obtain ⟨rest, hrest, rfl⟩ := Option.map_eq_some_iff.mp h
    obtain ⟨rfl, rfl, rfl⟩ := ih hrest
    exact ⟨rfl, rfl, rfl⟩
  | case4 => cases h

/-- **Sorting and replaying are inverse to each other.** -/
theorem replay_eq_some_iff {sides : List DynamicScope} {onInstance onModule : List Name}
    {methods : List DynamicName} :
    replay sides onInstance onModule = some methods
      ↔ methods.map scope = sides
        ∧ namesOn .onInstance methods = onInstance ∧ namesOn .onModule methods = onModule := by
  constructor
  · exact namesOn_of_replay_eq_some
  · rintro ⟨rfl, rfl, rfl⟩
    exact replay_namesOn methods

end DynamicName

/-- **The dynamic declarations of a list** are read off one by one, the empty ones
included. -/
theorem map_dynamic_filterMap_dynamicNames? (as : List Annotation) :
    (as.filterMap Annotation.dynamicNames?).map .dynamic = as.filter (·.kind = .dynamic) := by
  rw [List.map_filterMap, ← List.filterMap_eq_filter]
  refine List.filterMap_congr (fun a _ => ?_)
  cases a <;> rfl

namespace Index

/-- **The methods an index has declared dynamic**, in the order of its annotations
and with repetitions. -/
def dynamicMethods (index : Index) : List DynamicName :=
  (index.annotations.filterMap Annotation.dynamicNames?).flatten

theorem flatten_dynamicDeclarations (index : Index) :
    index.dynamicDeclarations.flatten = index.dynamicMethods := by
  unfold dynamicMethods
  rw [dynamicDeclarations_eq]

theorem dynamicInstanceMethods_eq (index : Index) :
    index.dynamicInstanceMethods = DynamicName.namesOn .onInstance index.dynamicMethods := by
  unfold dynamicInstanceMethods
  rw [flatten_dynamicDeclarations]
  rfl

theorem dynamicModuleMethods_eq (index : Index) :
    index.dynamicModuleMethods = DynamicName.namesOn .onModule index.dynamicMethods := by
  unfold dynamicModuleMethods
  rw [flatten_dynamicDeclarations]
  rfl

/-- **Nothing but dynamic declarations counts** towards the dynamic methods, and of
these all do. -/
theorem dynamicDeclarations_eq_iff {i j : Index} :
    i.dynamicDeclarations = j.dynamicDeclarations
      ↔ i.annotations.filter (·.kind = .dynamic) = j.annotations.filter (·.kind = .dynamic) := by
  rw [dynamicDeclarations_eq, dynamicDeclarations_eq, ← map_dynamic_filterMap_dynamicNames?,
    ← map_dynamic_filterMap_dynamicNames?, List.map_inj_right (fun _ _ => Annotation.dynamic.inj)]

/-- **A merge** keeps every dynamic declaration. -/
theorem dynamicDeclarations_merge {outer inner merged : Index}
    (h : outer.merge inner = .ok merged) :
    merged.dynamicDeclarations = outer.dynamicDeclarations ++ inner.dynamicDeclarations := by
  obtain ⟨-, rfl⟩ := merge_eq_ok_iff.mp h
  rw [dynamicDeclarations_eq, dynamicDeclarations_eq, dynamicDeclarations_eq, annotations_build,
    List.filterMap_append, inherited, filterMap_dynamicNames?_filter]

end Index

namespace Bracketing

variable {t : Bracketing} {merged : Index}

/-- **Any number of merges** keeps every dynamic declaration, the outermost ones
first. -/
theorem dynamicDeclarations_eval (h : t.eval = .ok merged) :
    merged.dynamicDeclarations = t.leaves.flatMap Index.dynamicDeclarations := by
  induction t generalizing merged with
  | leaf index =>
    cases h
    exact (List.flatMap_singleton _ _).symm
  | merge outer inner ihOuter ihInner =>
    obtain ⟨o, i, ho, hi, hmerge⟩ := eval_merge_eq_ok_iff.mp h
    rw [Index.dynamicDeclarations_merge hmerge, ihOuter ho, ihInner hi, leaves,
      List.flatMap_append]

theorem dynamicMethods_eval (h : t.eval = .ok merged) :
    merged.dynamicMethods = t.leaves.flatMap Index.dynamicMethods := by
  rw [← Index.flatten_dynamicDeclarations, dynamicDeclarations_eval h, List.flatten_eq_flatMap,
    List.flatMap_assoc]
  refine congrArg (List.flatMap · t.leaves) (funext (fun i => ?_))
  rw [← List.flatten_eq_flatMap, Index.flatten_dynamicDeclarations]

theorem dynamicInstanceMethods_eval (h : t.eval = .ok merged) :
    merged.dynamicInstanceMethods = t.leaves.flatMap Index.dynamicInstanceMethods := by
  rw [Index.dynamicInstanceMethods_eq, dynamicMethods_eval h, DynamicName.namesOn_flatMap]
  exact congrArg (List.flatMap · t.leaves) (funext (fun i => i.dynamicInstanceMethods_eq.symm))

theorem dynamicModuleMethods_eval (h : t.eval = .ok merged) :
    merged.dynamicModuleMethods = t.leaves.flatMap Index.dynamicModuleMethods := by
  rw [Index.dynamicModuleMethods_eq, dynamicMethods_eval h, DynamicName.namesOn_flatMap]
  exact congrArg (List.flatMap · t.leaves) (funext (fun i => i.dynamicModuleMethods_eq.symm))

end Bracketing

/-- **No dynamic method is lost**, and none is counted twice or put on the wrong
side. The dynamic declarations of an index are those among its annotations, one by
one, and together they list its dynamic methods. The names of these are sorted by
side, in order and with repetitions, and the sides of the methods are enough to put
the two lists of names together again, with nothing left over. Annotations of other
kinds have no part in any of this. Merging puts the declarations and both lists of
the inner index behind those of the outer one, and any number of merges puts
together those of all the indexes merged. -/
theorem dynamicMethods_partitioned :
    (∀ index : Index,
      let methods := index.dynamicMethods
      index.dynamicDeclarations.map .dynamic = index.annotations.filter (·.kind = .dynamic)
      ∧ index.dynamicDeclarations.flatten = methods
      ∧ index.dynamicInstanceMethods
        = (methods.filter DynamicName.isInstance).map DynamicName.name
      ∧ index.dynamicModuleMethods = (methods.filter DynamicName.isModule).map DynamicName.name
      ∧ DynamicName.replay (methods.map DynamicName.scope) index.dynamicInstanceMethods
        index.dynamicModuleMethods = some methods
      ∧ ∀ other : Index, other.annotations.filter (·.kind = .dynamic)
          = index.annotations.filter (·.kind = .dynamic) →
        other.dynamicDeclarations = index.dynamicDeclarations
        ∧ other.dynamicInstanceMethods = index.dynamicInstanceMethods
        ∧ other.dynamicModuleMethods = index.dynamicModuleMethods)
    ∧ (∀ outer inner merged : Index, outer.merge inner = .ok merged →
      merged.dynamicDeclarations = outer.dynamicDeclarations ++ inner.dynamicDeclarations
      ∧ merged.dynamicInstanceMethods
        = outer.dynamicInstanceMethods ++ inner.dynamicInstanceMethods
      ∧ merged.dynamicModuleMethods = outer.dynamicModuleMethods ++ inner.dynamicModuleMethods)
    ∧ ∀ (t : Bracketing) (merged : Index), t.eval = .ok merged →
      merged.dynamicDeclarations = t.leaves.flatMap Index.dynamicDeclarations
      ∧ merged.dynamicInstanceMethods = t.leaves.flatMap Index.dynamicInstanceMethods
      ∧ merged.dynamicModuleMethods = t.leaves.flatMap Index.dynamicModuleMethods := by
  refine ⟨fun index => ?_, fun outer inner merged h => ?_, fun t merged h => ?_⟩
  · intro methods
    refine ⟨?_, index.flatten_dynamicDeclarations, index.dynamicInstanceMethods_eq,
      index.dynamicModuleMethods_eq, ?_, fun other h => ?_⟩
    · rw [Index.dynamicDeclarations_eq, map_dynamic_filterMap_dynamicNames?]
    · exact DynamicName.replay_eq_some_iff.mpr
        ⟨rfl, index.dynamicInstanceMethods_eq.symm, index.dynamicModuleMethods_eq.symm⟩
    · -- Both lists of names are made from the declarations alone.
      have hsame := Index.dynamicDeclarations_eq_iff.mpr h
      unfold Index.dynamicInstanceMethods Index.dynamicModuleMethods
      rw [hsame]
      exact ⟨rfl, rfl, rfl⟩
  · -- The smallest case of nesting.
    have heval : (Bracketing.merge (.leaf outer) (.leaf inner)).eval = .ok merged := h
    have happend {α : Type} (f : Index → List α) : [outer, inner].flatMap f = f outer ++ f inner := by
      rw [List.flatMap_cons, List.flatMap_singleton]
    rw [← happend, ← happend, ← happend]
    exact ⟨Bracketing.dynamicDeclarations_eval heval, Bracketing.dynamicInstanceMethods_eval heval,
      Bracketing.dynamicModuleMethods_eval heval⟩
  · exact ⟨Bracketing.dynamicDeclarations_eval h, Bracketing.dynamicInstanceMethods_eval h,
      Bracketing.dynamicModuleMethods_eval h⟩

/-- The declaration for blocks that is left out lies between dynamic ones, one of
which is empty, and a name comes twice. -/
theorem dynamicMethods_partitioned_across_block :
    let outer := Index.build [.dynamic [.ofModule ⟨1⟩, .ofInstance ⟨2⟩], .blockType .nil,
      .dynamic []] ⟨⟨0⟩, .root⟩
    let inner := Index.build [.dynamic [.ofInstance ⟨2⟩]] ⟨⟨0⟩, .root⟩
    ∃ merged, outer.merge inner = .ok merged
      ∧ merged.dynamicDeclarations
        = [[.ofModule ⟨1⟩, .ofInstance ⟨2⟩], [], [.ofInstance ⟨2⟩]]
      ∧ merged.dynamicInstanceMethods = [⟨2⟩, ⟨2⟩] ∧ merged.dynamicModuleMethods = [⟨1⟩] := by
  intro outer inner
  have h : outer.merge inner = .ok _ := Index.merge_eq_ok_iff.mpr ⟨rfl, rfl⟩
  exact ⟨_, h, dynamicMethods_partitioned.2.1 outer inner _ h⟩

end ScopedAnnotations
