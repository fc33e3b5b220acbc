import ScopedAnnotations.ModuleContext

/-!
# Contexts are lists of names

One comes to a module context by moves: back to the top level, to a module that
is named by its path, one module further in. Whether two scopes may be mixed is
decided by comparing their contexts, and what is compared are the paths that are
stored, with their anchoring. The comparison would tell apart two ways to the
same place if the moves did not agree on how a place is written down. Going to a
module has to anchor its path, entering one from the top level has to begin with
an anchored path, and entering one from anywhere else has to keep the anchoring.

They do agree, and all there is to a context is the list of the names of the
modules around it. Moves *spell* such a list, each of them by what it does to the
list that was spelled before, and the context that they lead to has the spelled
list for its path (`ModuleContext.Move.path_reached`). The path in turn says how
the context is stored (`ModuleContext.module?_eq`). In the other direction every
list is spelled by entering one module after the other, and different lists lead
to different contexts.
-/

namespace ScopedAnnotations

namespace ModuleContext

/-! ## One context for every list -/

/-- **The context inside of the given modules**, outermost first: from the top
level they are entered one after the other. -/
def nested (names : List Name) : ModuleContext := names.foldl enter root

@[simp]
theorem path_nested (names : List Name) : (nested names).path = names := by
  have hfrom (context : ModuleContext) :
      (names.foldl enter context).path = context.path ++ names := by
    induction names generalizing context with
    | nil => exact (List.append_nil _).symm
    | cons name names ih =>
      rw [List.foldl_cons, ih, path_enter, List.append_assoc, List.singleton_append]
  exact hfrom root

/-- Every context is the inside of the modules that its path lists. -/
theorem nested_path (context : ModuleContext) : nested context.path = context :=
  path_inj.mp (path_nested context.path)

/-- **How a context is stored.** There is no module at the top level. Anywhere
else it is the path from the root that ends in the innermost name. -/
theorem module?_eq (context : ModuleContext) :
    context.module? = context.path.getLast?.map (.rooted context.path.dropLast) := by
  obtain ⟨_ | m, h⟩ := context
  · rfl
  · show some m = m.segments.getLast?.map (.rooted m.segments.dropLast)
    rw [QualifiedName.segments, List.getLast?_concat, List.dropLast_concat]
    exact congrArg some (QualifiedName.ext rfl (h m rfl))

theorem isRoot_iff {context : ModuleContext} : context.isRoot = true ↔ context.path = [] := by
  rw [isRoot, module?_eq, Option.isNone_map, Option.isNone_iff_eq_none,
    List.getLast?_eq_none_iff]

/-- **The innermost name and the context around it** are both known from where
one is. -/
theorem enter_inj {c d : ModuleContext} {m n : Name} : c.enter m = d.enter n ↔ c = d ∧ m = n := by
  rw [← path_inj, path_enter, path_enter, ← path_inj]
  exact List.append_singleton_inj

/-! ## Moving about -/

/-- **A move**, from whatever context one is in. -/
inductive Move where
  /-- To the top level. -/
  | leave
  /-- To a module that is named by its path. -/
  | goTo (path : QualifiedName)
  /-- To a module nested directly in the one at hand. -/
  | enter (name : Name)

namespace Move

/-- The context that a move leads to. -/
def take (context : ModuleContext) : Move → ModuleContext
  | leave => root
  | goTo path => ofModule path
  | enter name => context.enter name

/-- What a move makes of the names spelled before it. Whether the path of a
module is relative or absolute does not come in. -/
def spell (names : List Name) : Move → List Name
  | leave => []
  | goTo path => path.segments
  | enter name => names ++ [name]

/-- The context that moves lead to, taken one after the other. -/
def reached (moves : List Move) : ModuleContext := moves.foldl take default

/-- The names that moves spell, taken one after the other. -/
def spelled (moves : List Move) : List Name := moves.foldl spell []

/-- **One move** does to the path of the context what it spells. -/
theorem path_take (context : ModuleContext) (move : Move) :
    (take context move).path = spell context.path move := by
  cases move with
  | leave => rfl
  | goTo path => exact path_ofModule path
  | enter name => exact path_enter context name

/-- **Any moves** lead to a context with the path that they spelled. -/
theorem path_reached (moves : List Move) : (reached moves).path = spelled moves := by
  have hfrom (context : ModuleContext) :
      (moves.foldl take context).path = moves.foldl spell context.path := by
    induction moves generalizing context with
    | nil => rfl
    | cons move moves ih => rw [List.foldl_cons, List.foldl_cons, ih, path_take]
  exact hfrom default

end Move

open Move

/-- **Contexts are the lists of names.** Whichever moves are made from the top
level, the path of the context that they lead to is the list that they spelled;
there is no module if the list is empty, and otherwise the module is stored as an
absolute path. Every list is the path of a context, and of only one; the empty
list is that of the top level. Entering a module puts its name behind the path.
Going to a module is entering the modules of its path one by one, however the
path was anchored. And where one has entered a module, both its name and the
context around it are known. -/
theorem paths_classify :
    (∀ moves : List Move,
      (reached moves).path = spelled moves
      ∧ ((reached moves).module? = none
        ∨ ∃ m, (reached moves).module? = some m ∧ m.absolute = true)
      ∧ (reached moves).module?
        = (spelled moves).getLast?.map (.rooted (spelled moves).dropLast))
    ∧ (∀ c d : ModuleContext, c = d ↔ c.path = d.path)
    ∧ (∀ c : ModuleContext, c.isRoot = true ↔ c.path = [])
    ∧ root.path = [] ∧ (default : ModuleContext).path = []
    ∧ (∀ q : QualifiedName, (ofModule q).path = q.segments
      ∧ ofModule q = q.segments.foldl ModuleContext.enter root)
    ∧ (∀ (c : ModuleContext) (n : Name), (c.enter n).path = c.path ++ [n])
    ∧ (∀ names : List Name, (reached (names.map .enter)).path = names)
    ∧ ∀ (c d : ModuleContext) (m n : Name), c.enter m = d.enter n ↔ c = d ∧ m = n := by
  refine ⟨fun moves => ⟨path_reached moves, ?_, ?_⟩, fun c d => path_inj.symm,
    fun c => isRoot_iff, rfl, rfl, fun q => ⟨path_ofModule q, ?_⟩, path_enter, fun names => ?_,
    fun c d m n => enter_inj⟩
  · cases hmodule : (reached moves).module? with
    | none => exact .inl rfl
    | some m => exact .inr ⟨m, rfl, (reached moves).anchored m hmodule⟩
  · rw [module?_eq, path_reached]
  · exact (nested_path (ofModule q)).symm
  · rw [reached, List.foldl_map]
    exact path_nested names

end ModuleContext

end ScopedAnnotations
