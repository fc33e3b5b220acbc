import ScopedAnnotations.Session
import ScopedAnnotations.Resolver.Rendering
import ScopedAnnotations.Proofs.Aliasing
import ScopedAnnotations.Proofs.Answer

/-!
# Texts from a table that grows

The rendering resolver reads its texts from a symbol table, and others go on
interning into that table while it answers. Asked the same thing twice, it
reads two different tables. This module says that it is nevertheless a function
of the question, as a resolver should be, as long as the table knew all the
names in the question when it was first asked (`SymbolTable.Pool.happenAll_repeats`).

There are two halves to it, and they do not know of each other. A text depends
on the table only through the texts of the names that are written in it: the
names of an expression are listed once (`TypeExpr.names`), and two look-ups that
agree on the list render the expression alike (`TypeExpr.rendered_congr`). And
whatever is asked of a pool, through whichever handles, its tables are only ever
added to at the end (`SymbolTable.Pool.Extends`), so that a name that is known
keeps its text.
-/

namespace ScopedAnnotations

/-! ## The names in an expression -/

namespace TypeExpr

mutual

/-- **The names in an expression**, at any depth: the segments of its paths and
its type variables. -/
def names : TypeExpr → List Name
  | any | void | nil | bool | selfType | instanceType | classType => []
  | var name => [name]
  | named path args => path.segments ++ namesAll args
  | tuple elems => namesAll elems
  | union members => namesAll members
  | optional inner => inner.names
  | proc method => namesSignature method

/-- The names in each of the expressions. -/
def namesAll : List TypeExpr → List Name
  | [] => []
  | t :: ts => t.names ++ namesAll ts

/-- The names in the parameters, the block and the result, and those that are
bound. -/
def namesSignature : Signature TypeExpr → List Name
  | ⟨vars, params, none, ret⟩ => vars ++ (namesAll params ++ ret.names)
  | ⟨vars, params, some ⟨blockParams, blockRet, _⟩, ret⟩ =>
    vars ++ (namesAll params ++ ((namesAll blockParams ++ blockRet.names) ++ ret.names))

end

end TypeExpr

/-- The names in a method type. -/
def Signature.names (method : MethodType) : List Name := TypeExpr.namesSignature method

/-! ## Look-ups that agree on the names -/

section Congruence

variable {f g : Name → String} {c : ModuleContext}

theorem QualifiedName.display_congr {p : QualifiedName} (h : ∀ name ∈ p.segments, f name = g name) :
    p.display f = p.display g := by
  rw [display, display, List.map_congr_left h]

/-- A path is written from the root with the names of the module and its own. -/
theorem QualifiedName.displayIn_congr (hc : ∀ name ∈ c.path, f name = g name) {p : QualifiedName}
    (h : ∀ name ∈ p.segments, f name = g name) : p.displayIn f c = p.displayIn g c := by
  have hp := display_congr h
  obtain ⟨_ | m, hm⟩ := c
  · show (if p.absolute then p.display f else "::" ++ p.display f) = _
    rw [hp]
    rfl
  · have hm : m.display f = m.display g := display_congr hc
    show (if p.absolute then p.display f else m.display f ++ "::" ++ p.display f) = _
    rw [hp, hm]
    rfl

namespace TypeExpr

-- By recursion on the expression. Where rendering stops nothing is looked up.
mutual

/-- **An expression is rendered with the names in it**, and with those of the
module. -/
theorem rendered_congr (hc : ∀ name ∈ c.path, f name = g name) :
    ∀ t : TypeExpr, (∀ name ∈ t.names, f name = g name) → t.rendered f c = t.rendered g c
  | any, _ | void, _ | nil, _ | bool, _ | selfType, _ | instanceType, _ | classType, _
  | tuple _, _ | union _, _ | proc _, _ => rfl
  | var name, h => h name List.mem_cons_self
  | named path [], h =>
    QualifiedName.displayIn_congr hc (fun name hn => h name (List.mem_append_left _ hn))
  | named path (arg :: args), h => by
    obtain ⟨hpath, hall⟩ := List.forall_mem_append.mp h
    obtain ⟨harg, hargs⟩ := List.forall_mem_append.mp hall
    show path.displayIn f c ++ "["
        ++ ", ".intercalate (arg.rendered f c :: renderedAll f c args) ++ "]" = _
    rw [QualifiedName.displayIn_congr hc hpath, rendered_congr hc arg harg,
      renderedAll_congr hc args hargs]
    rfl
  | optional inner, h => congrArg (· ++ "?") (rendered_congr hc inner h)

theorem renderedAll_congr (hc : ∀ name ∈ c.path, f name = g name) :
    ∀ ts : List TypeExpr, (∀ name ∈ namesAll ts, f name = g name) →
      renderedAll f c ts = renderedAll g c ts
  | [], _ => rfl
  | t :: ts, h => by
    obtain ⟨ht, hts⟩ := List.forall_mem_append.mp h
    rw [renderedAll, renderedAll, rendered_congr hc t ht, renderedAll_congr hc ts hts]

end

end TypeExpr

namespace Signature

/-- The names of the parameters and of the result are among those of the
method. -/
theorem forall_names {p : Name → Prop} {method : MethodType} (h : ∀ name ∈ method.names, p name) :
    (∀ name ∈ TypeExpr.namesAll method.params, p name) ∧ ∀ name ∈ method.ret.names, p name := by
  obtain ⟨vars, params, _ | block, ret⟩ := method
  · obtain ⟨-, hrest⟩ := List.forall_mem_append.mp h
    exact List.forall_mem_append.mp hrest
  · obtain ⟨-, hrest⟩ := List.forall_mem_append.mp h
    obtain ⟨hparams, hrest⟩ := List.forall_mem_append.mp hrest
    exact ⟨hparams, (List.forall_mem_append.mp hrest).2⟩

theorem rendered_congr (hc : ∀ name ∈ c.path, f name = g name) {method : MethodType}
    (h : ∀ name ∈ method.names, f name = g name) : method.rendered f c = method.rendered g c := by
  obtain ⟨hparams, hret⟩ := forall_names h
  unfold rendered
  rw [← TypeExpr.renderedAll_eq_map, ← TypeExpr.renderedAll_eq_map,
    TypeExpr.renderedAll_congr hc method.params hparams, TypeExpr.rendered_congr hc method.ret hret]

end Signature

end Congruence

/-! ## The names in a question -/

/-- **The names in what answers a query**: those of the expression that the index
holds in the place asked about, or of all the expressions in a snapshot. A query
that is answered as written is answered without the texts of any names. -/
def Query.names (index : Index) : Query → List Name
  | variableType ref => (index.variableExpr ref).toList.flatMap TypeExpr.names
  | methodType name => (index.methodExpr name).toList.flatMap Signature.names
  | slotType slot => (index.slotExpr slot).toList.flatMap TypeExpr.names
  | localVariableTypes => index.classified.varTypes.toList.flatMap (·.2.names)
  | instanceVariableTypes => index.classified.ivarTypes.toList.flatMap (·.2.names)
  | constantTypes => index.classified.constTypes.toList.flatMap (·.2.names)
  | _ => []

section Questions

variable {f g : Name → String} {index : Index}

/-- The resolvers that write everything with the same texts. -/
def Resolvers.rendering (lookUp : Name → String) : Resolvers Id String String :=
  fun _ => .rendering lookUp

theorem Index.resolve?_congr (hc : ∀ name ∈ index.scope.context.path, f name = g name)
    {type? : Option TypeExpr} (h : ∀ name ∈ type?.toList.flatMap TypeExpr.names, f name = g name) :
    index.resolve? (.rendering f) type? = index.resolve? (.rendering g) type? := by
  cases type? with
  | none => rfl
  | some type =>
    have hnames : ∀ name ∈ type.names, f name = g name := by
      rwa [Option.toList_some, List.flatMap_singleton] at h
    exact congrArg some (TypeExpr.rendered_congr hc type hnames)

theorem Index.resolveAll_congr {κ : Type} [Ord κ] [Std.TransOrd κ] [Std.LawfulEqOrd κ]
    (hc : ∀ name ∈ index.scope.context.path, f name = g name) {types : Std.ExtTreeMap κ TypeExpr}
    (h : ∀ name ∈ types.toList.flatMap (·.2.names), f name = g name) :
    index.resolveAll (.rendering f) types = index.resolveAll (.rendering g) types := by
  refine Std.ExtTreeMap.ext_getElem? (fun {key} => ?_)
  refine (getElem?_resolveAll (.rendering f) index types key).trans
    (Eq.trans ?_ (getElem?_resolveAll (.rendering g) index types key).symm)
  refine Option.map_congr (fun type htype => ?_)
  have hentry := Std.ExtTreeMap.mem_toList_iff_getElem?_eq_some.mpr htype
  exact TypeExpr.rendered_congr hc type
    (fun name hn => h name (List.mem_flatMap.mpr ⟨(key, type), hentry, hn⟩))

/-- **A query is answered with the names in what answers it**, and with those of
the module: look-ups that agree on these lead to one answer. -/
theorem Query.answer_congr (hc : ∀ name ∈ index.scope.context.path, f name = g name)
    (query : Query) (h : ∀ name ∈ query.names index, f name = g name) :
    query.answer (.rendering f) index = query.answer (.rendering g) index := by
  cases query with
  | variableType ref => exact congrArg Reply.type (Index.resolve?_congr hc h)
  | slotType slot => exact congrArg Reply.type (Index.resolve?_congr hc h)
  | localVariableTypes => exact congrArg Reply.variableTypes (Index.resolveAll_congr hc h)
  | instanceVariableTypes => exact congrArg Reply.variableTypes (Index.resolveAll_congr hc h)
  | constantTypes => exact congrArg Reply.constantTypes (Index.resolveAll_congr hc h)
  | methodType name =>
    have hmethod : index.methodType (.rendering f) name = index.methodType (.rendering g) name := by
      unfold Index.methodType
      change ∀ n ∈ (index.methodExpr name).toList.flatMap Signature.names, f n = g n at h
      cases hexpr : index.methodExpr name with
      | none => rfl
      | some method =>
        rw [hexpr, Option.toList_some, List.flatMap_singleton] at h
        exact congrArg some (Signature.rendered_congr hc h)
    exact congrArg Reply.method hmethod
  | _ => rfl

end Questions

namespace SymbolTable

/-! ## A pool that grows -/

namespace Pool

variable {pool pool' pool'' : Pool}

/-- **One pool extends another**: handles point where they pointed, and every
table has at most grown. -/
structure Extends (pool pool' : Pool) : Prop where
  holdings : ∀ (i : Nat) holding, pool.holdings[i]? = some holding →
    pool'.holdings[i]? = some holding
  tables : ∀ (i : Nat) table, pool.tables[i]? = some table →
    ∃ table', pool'.tables[i]? = some table' ∧ table.GrowsInto table'

namespace Extends

theorem refl (pool : Pool) : pool.Extends pool where
  holdings := fun _ _ h => h
  tables := fun _ table h => ⟨table, h, .refl table⟩

theorem trans (h : pool.Extends pool') (h' : pool'.Extends pool'') : pool.Extends pool'' where
  holdings := fun i holding hi => h'.holdings i holding (h.holdings i holding hi)
  tables := by
    intro i table hi
    obtain ⟨table', hi', hgrows⟩ := h.tables i table hi
    obtain ⟨table'', hi'', hgrows'⟩ := h'.tables i table' hi'
    exact ⟨table'', hi'', hgrows.trans hgrows'⟩

/-- What a handle reaches is still there, and has at most grown. -/
theorem find (h : pool.Extends pool') {handle : Handle} {holding : Holding} {table : SymbolTable}
    (found : pool.find handle = .ok (holding, table)) :
    ∃ table', pool'.find handle = .ok (holding, table') ∧ table.GrowsInto table' := by
  obtain ⟨hholding, htable⟩ := find_eq_ok_iff.mp found
  obtain ⟨table', htable', hgrows⟩ := h.tables holding.table table htable
  exact ⟨table', find_eq_ok_iff.mpr ⟨h.holdings _ _ hholding, htable'⟩, hgrows⟩

end Extends

theorem getElem?_push_of_getElem? {α : Type} {as : Array α} {i : Nat} {a : α}
    (h : as[i]? = some a) (last : α) : (as.push last)[i]? = some a := by
  obtain ⟨hlt, -⟩ := Array.getElem?_eq_some_iff.mp h
  rw [Array.getElem?_push, if_neg (Nat.ne_of_lt hlt)]
  exact h

/-- A handle more leaves the others as they are. -/
theorem extends_addHandle (pool : Pool) (holding : Holding) :
    pool.Extends (pool.addHandle holding).2 where
  holdings := fun _ _ h => getElem?_push_of_getElem? h _
  tables := fun _ table h => ⟨table, h, .refl table⟩

/-- A table more leaves the others as they are. -/
theorem extends_push (pool : Pool) (table : SymbolTable) :
    pool.Extends { pool with tables := pool.tables.push table } where
  holdings := fun _ _ h => h
  tables := fun _ table h => ⟨table, getElem?_push_of_getElem? h _, .refl table⟩

/-- A question makes one table grow. -/
theorem extends_of_perform_through (handle : Handle) (question : Question) {reply : Reply}
    (h : pool.perform (question.through handle) = .ok (reply, pool')) : pool.Extends pool' := by
  cases found : pool.find handle with
  | error error =>
    rw [perform_through_of_error found] at h
    cases h
  | ok reached =>
    obtain ⟨holding, table⟩ := reached
    rw [perform_through found, Except.ok.injEq, Prod.mk.injEq] at h
    obtain ⟨-, rfl⟩ := h
    refine ⟨fun _ _ hi => hi, fun i table' hi => ?_⟩
    by_cases hsame : holding.table = i
    · subst hsame
      obtain rfl := Option.some_inj.mp ((getElem?_of_find found).symm.trans hi)
      obtain ⟨hlt, -⟩ := Array.getElem?_eq_some_iff.mp hi
      exact ⟨_, by rw [Array.getElem?_setIfInBounds_self_of_lt hlt], growsInto_after table question⟩
    · exact ⟨table', by rwa [Array.getElem?_setIfInBounds_ne hsame], .refl table'⟩

/-- **One request.** Whatever is asked of a pool, and through whichever handle,
the pool is extended. -/
theorem extends_of_perform {request : Request} {reply : Reply}
    (h : pool.perform request = .ok (reply, pool')) : pool.Extends pool' := by
  cases request with
  | create ownership =>
    cases h
    exact (pool.extends_push .empty).trans (extends_addHandle _ _)
  | clone handle =>
    obtain ⟨⟨⟨i, _ | _⟩, table⟩, -, h⟩ := bind_eq_ok_iff.mp h
    · cases h
    · cases h
      exact pool.extends_addHandle _
  | intern handle text => exact extends_of_perform_through handle (.intern text) h
  | lookUp handle name => exact extends_of_perform_through handle (.lookUp name) h
  | display handle path => exact extends_of_perform_through handle (.display path) h
  | size handle => exact extends_of_perform_through handle .size h
  | isEmpty handle => exact extends_of_perform_through handle .isEmpty h

end Pool

/-! ## Indexes in use -/

/-- **What happens while indexes are in use**: something is asked of the tables,
or of an index. -/
inductive Event where
  | request (request : Request)
  | query (index : Index) (query : Query)

/-- What comes of it. -/
inductive Outcome where
  | reply (reply : Reply)
  | answer (answer : ScopedAnnotations.Reply String String)

namespace Pool

/-- One event. Every resolver is a rendering resolver with a handle of its own,
and reads the table that the handle reaches as it is when the resolver is
asked. -/
def happen (renderers : ResolverId → Handle) (pool : Pool) :
    Event → Except HandleError (Outcome × Pool)
  | .request request => do
    let (reply, pool) ← pool.perform request
    return (.reply reply, pool)
  | .query index query => do
    let (_, table) ← pool.find (renderers index.scope.resolver)
    return (.answer (query.answer (.rendering table.lookUp) index).run, pool)

/-- Events, one after another. -/
def happenAll (renderers : ResolverId → Handle) (pool : Pool) :
    List Event → Except HandleError (List Outcome × Pool)
  | [] => .ok ([], pool)
  | event :: events => do
    let (outcome, pool) ← pool.happen renderers event
    let (outcomes, pool) ← pool.happenAll renderers events
    return (outcome :: outcomes, pool)

section Run

variable {renderers : ResolverId → Handle} {pool pool' : Pool}

/-- Asking an index changes nothing, and asking the tables extends them. -/
theorem extends_of_happen {event : Event} {outcome : Outcome}
    (h : pool.happen renderers event = .ok (outcome, pool')) : pool.Extends pool' := by
  cases event with
  | request request =>
    obtain ⟨⟨reply, next⟩, hperform, h⟩ := bind_eq_ok_iff.mp h
    cases h
    exact extends_of_perform hperform
  | query index query =>
    obtain ⟨reached, -, h⟩ := bind_eq_ok_iff.mp h
    cases h
    exact .refl _

/-- **A run extends the pool.** -/
theorem extends_of_happenAll {events : List Event} {outcomes : List Outcome}
    (h : pool.happenAll renderers events = .ok (outcomes, pool')) : pool.Extends pool' := by
  induction events generalizing pool outcomes with
  | nil =>
    cases h
    exact .refl _
  | cons event events ih =>
    obtain ⟨⟨outcome, middle⟩, hfirst, h⟩ := bind_eq_ok_iff.mp h
    obtain ⟨⟨later, last⟩, hrest, h⟩ := bind_eq_ok_iff.mp h
    cases h
    exact (extends_of_happen hfirst).trans (ih hrest)

/-- **A rendering resolver repeats itself.** Let anything happen after a query
was made: texts interned through any handles, clones and tables made, other
queries put. If the resolver's table knew the names of the module and of what
answers the query when the query was first made, the query is answered the same
when it is made again. And a path that was displayed when its names were known
is displayed the same through any handle on the same table. -/
theorem happenAll_repeats {events : List Event} {outcomes : List Outcome}
    (run : pool.happenAll renderers events = .ok (outcomes, pool')) :
    (∀ index query holding table,
      pool.find (renderers index.scope.resolver) = .ok (holding, table) →
      (∀ name ∈ index.scope.context.path, table.Knows name) →
      (∀ name ∈ query.names index, table.Knows name) →
      ∃ answer, pool.happen renderers (.query index query) = .ok (.answer answer, pool)
        ∧ pool'.happen renderers (.query index query) = .ok (.answer answer, pool'))
    ∧ ∀ handle handle' holding holding' table table' path,
      pool.find handle = .ok (holding, table) →
      pool'.find handle' = .ok (holding', table') → holding.table = holding'.table →
      (∀ name ∈ path.segments, table.Knows name) →
      ∃ text, pool.perform (.display handle path) = .ok (.text text, pool)
        ∧ pool'.perform (.display handle' path) = .ok (.text text, pool') := by
  have hextends := extends_of_happenAll run
  refine ⟨fun index query holding table found hcontext hnames => ?_,
    fun handle handle' holding holding' table table' path found found' hshared hnames => ?_⟩
  · obtain ⟨table', found', hgrows⟩ := hextends.find found
    have hsame : query.answer (.rendering table'.lookUp) index
        = query.answer (.rendering table.lookUp) index :=
      query.answer_congr (fun name hn => hgrows.lookUp_eq (hcontext name hn))
        (fun name hn => hgrows.lookUp_eq (hnames name hn))
    refine ⟨(query.answer (.rendering table.lookUp) index).run,
      bind_eq_ok_iff.mpr ⟨_, found, rfl⟩, bind_eq_ok_iff.mpr ⟨_, found', ?_⟩⟩
    show Except.ok (Outcome.answer (query.answer (.rendering table'.lookUp) index).run, pool') = _
    rw [hsame]
  · -- Both handles reach one table, and that table has at most grown.
    obtain ⟨grown, htable, hgrows⟩ := hextends.tables _ _ (getElem?_of_find found)
    rw [hshared, getElem?_of_find found', Option.some_inj] at htable
    subst htable
    have hsame : path.display table'.lookUp = path.display table.lookUp :=
      QualifiedName.display_congr (fun name hn => hgrows.lookUp_eq (hnames name hn))
    refine ⟨path.display table.lookUp, bind_eq_ok_iff.mpr ⟨_, found, rfl⟩,
      bind_eq_ok_iff.mpr ⟨_, found', ?_⟩⟩
    show Except.ok (Reply.text (path.display table'.lookUp), pool') = _
    rw [hsame]

/-- A generic type in a module, asked about before and after more texts are
interned through a clone of the resolver's handle, and a path displayed through
that clone. -/
theorem happenAll_repeats_cloned :
    let table := (((SymbolTable.empty.push "Shop" ⟨1⟩).push "Array" ⟨2⟩).push "Item" ⟨3⟩).push
      "items" ⟨4⟩
    let pool : Pool := ⟨#[table], #[⟨0, .shared⟩]⟩
    let renderers : ResolverId → Handle := fun _ => ⟨0⟩
    let type : TypeExpr := .named (.rooted [] ⟨2⟩) [.optional (.ofPath (.simple ⟨3⟩))]
    let index := Index.build [.varType ⟨4⟩ type] ⟨⟨0⟩, ModuleContext.root.enter ⟨1⟩⟩
    let query := Query.variableType (.localVar ⟨4⟩)
    let events : List Event := [.request (.clone ⟨0⟩), .request (.intern ⟨1⟩ "Cart"),
      .query index .constantTypes, .request (.create .sole), .request (.intern ⟨2⟩ "Item")]
    ∃ outcomes pool', pool.happenAll renderers events = .ok (outcomes, pool')
      ∧ (∃ answer, pool.happen renderers (.query index query) = .ok (.answer answer, pool)
        ∧ pool'.happen renderers (.query index query) = .ok (.answer answer, pool'))
      ∧ ∃ text, pool.perform (.display ⟨0⟩ (.rooted [⟨1⟩] ⟨3⟩)) = .ok (.text text, pool)
        ∧ pool'.perform (.display ⟨1⟩ (.rooted [⟨1⟩] ⟨3⟩)) = .ok (.text text, pool') := by
  intro table pool renderers type index query events
  have hexists : ∃ outcomes pool', pool.happenAll renderers events = .ok (outcomes, pool') :=
    ⟨_, _, rfl⟩
  obtain ⟨outcomes, pool', hrun⟩ := hexists
  obtain ⟨hquery, hdisplay⟩ := happenAll_repeats hrun
  have hpath : ∀ name ∈ [(⟨1⟩ : Name)], table.Knows name := by decide
  have hnames : ∀ name ∈ [(⟨2⟩ : Name), ⟨3⟩], table.Knows name := by decide
  have hsegments : ∀ name ∈ [(⟨1⟩ : Name), ⟨3⟩], table.Knows name := by decide
  have hclone : ∃ table', pool'.find ⟨1⟩ = .ok (⟨0, .shared⟩, table') := by
    cases hrun
    exact ⟨_, rfl⟩
  obtain ⟨table', hfound⟩ := hclone
  exact ⟨outcomes, pool', hrun, hquery index query ⟨0, .shared⟩ table rfl hpath hnames,
    hdisplay ⟨0⟩ ⟨1⟩ ⟨0, .shared⟩ ⟨0, .shared⟩ table table' (.rooted [⟨1⟩] ⟨3⟩) rfl hfound rfl
      hsegments⟩

/-- A name that no table gave out may still be given a text, and a path with
such a name in it is not displayed the same from then on. -/
example :
    (Pool.empty.performAll [.create .shared, .display ⟨0⟩ (.simple ⟨1⟩), .intern ⟨0⟩ "x",
      .display ⟨0⟩ (.simple ⟨1⟩)]).map Prod.fst
    = .ok [.handle ⟨0⟩, .text "", .name ⟨1⟩, .text "x"] := by decide

end Run

end Pool

end SymbolTable

end ScopedAnnotations
