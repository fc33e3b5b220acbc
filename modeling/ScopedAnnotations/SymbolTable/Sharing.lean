import ScopedAnnotations.SymbolTable
import ScopedAnnotations.QualifiedName

/-!
# Shared symbol tables

Several parts of a checker intern into the same table, and each of them holds
a *handle* on it. Creating a table gives the first handle; cloning a handle
gives another one on the same table, which sees at once whatever is interned
through any of the others. A table can also be created for a single owner, in
which case its handle cannot be cloned.

A *pool* is all the tables together with what each handle points at. Tables
are never shared by accident: two handles reach the same table only through a
chain of clones from one creation.
-/

namespace ScopedAnnotations.SymbolTable

/-- Who may hold a table. -/
inductive Ownership where
  /-- One handle, for good. -/
  | sole
  /-- Any number of handles, all cloned from the first. -/
  | shared
  deriving DecidableEq, Repr

/-- A way to reach a table, numbered in the order of creation. -/
structure Handle where
  /-- The position of the handle in its pool. -/
  index : Nat
  deriving DecidableEq, Repr

/-- What a handle points at. -/
structure Holding where
  /-- The position of the table among the pool's tables. -/
  table : Nat
  /-- Whether the handle may be cloned. -/
  ownership : Ownership
  deriving DecidableEq, Repr

/-- Tables and the handles on them. -/
structure Pool where
  /-- The tables, in the order of creation. -/
  tables : Array SymbolTable
  /-- What each handle points at. -/
  holdings : Array Holding

/-- What can be asked of a pool. -/
inductive Request where
  /-- A new table and its first handle. -/
  | create (ownership : Ownership)
  /-- Another handle on the same table. -/
  | clone (handle : Handle)
  /-- The name of a text, listing it first if need be. -/
  | intern (handle : Handle) (text : String)
  /-- The text of a name. -/
  | lookUp (handle : Handle) (name : Name)
  /-- A path, as it is written. -/
  | display (handle : Handle) (path : QualifiedName)
  /-- How many texts are listed. -/
  | size (handle : Handle)
  /-- Whether no text but the empty one is listed. -/
  | isEmpty (handle : Handle)
  deriving DecidableEq, Repr

/-- What a pool answers. -/
inductive Reply where
  /-- A handle that was just made. -/
  | handle (handle : Handle)
  | name (name : Name)
  /-- The text could not be interned; nothing has changed. -/
  | refused (error : InternError)
  | text (text : String)
  | count (count : Nat)
  | truth (truth : Bool)
  deriving DecidableEq, Repr

/-- A request that makes no sense to the pool it was put to. -/
inductive HandleError where
  /-- The pool never gave out this handle. -/
  | unknown (handle : Handle)
  /-- The table has a single owner. -/
  | notShared (handle : Handle)
  deriving DecidableEq, Repr

namespace Pool

/-- No table and no handle. -/
def empty : Pool := ⟨#[], #[]⟩

instance : Inhabited Pool := ⟨empty⟩

/-- What a handle points at, and the table it reaches. -/
def find (pool : Pool) (handle : Handle) :
    Except HandleError (Holding × SymbolTable) :=
  match pool.holdings[handle.index]? with
  | none => .error (.unknown handle)
  | some holding =>
    match pool.tables[holding.table]? with
    | none => .error (.unknown handle)
    | some table => .ok (holding, table)

/-- Add a handle that points at the given table. -/
def addHandle (pool : Pool) (holding : Holding) : Reply × Pool :=
  (.handle ⟨pool.holdings.size⟩, { pool with holdings := pool.holdings.push holding })

/-- Answer one request. Only creating, cloning and interning change the
pool, and interning changes only the table that the handle reaches. -/
def perform (pool : Pool) : Request → Except HandleError (Reply × Pool)
  | .create ownership =>
    .ok (addHandle { pool with tables := pool.tables.push .empty }
      ⟨pool.tables.size, ownership⟩)
  | .clone handle => do
    let (holding, _) ← pool.find handle
    match holding.ownership with
    | .sole => .error (.notShared handle)
    | .shared => return pool.addHandle holding
  | .intern handle text => do
    let (holding, table) ← pool.find handle
    match table.nameFor text with
    | .error error => return (.refused error, pool)
    | .ok name =>
      -- The table is written where it stands, so that its texts are not copied.
      return (.name name,
        { pool with tables := pool.tables.modify holding.table (·.enter text name) })
  | .lookUp handle name => do
    let (_, table) ← pool.find handle
    return (.text (table.lookUp name), pool)
  | .display handle path => do
    let (_, table) ← pool.find handle
    return (.text (path.display table.lookUp), pool)
  | .size handle => do
    let (_, table) ← pool.find handle
    return (.count table.size, pool)
  | .isEmpty handle => do
    let (_, table) ← pool.find handle
    return (.truth table.isEmpty, pool)

/-- Answer requests one after another. -/
def performAll (pool : Pool) : List Request → Except HandleError (List Reply × Pool)
  | [] => .ok ([], pool)
  | request :: requests => do
    let (reply, pool) ← pool.perform request
    let (replies, pool) ← pool.performAll requests
    return (reply :: replies, pool)

/-- Interning through a handle is interning in the table that the handle
reaches: the pool answers with the same name and holds the table that results. -/
theorem perform_intern {pool : Pool} {handle : Handle} {holding : Holding}
    {table table' : SymbolTable} {text : String} {name : Name}
    (found : pool.find handle = .ok (holding, table))
    (interned : table.intern text = .ok (name, table')) :
    pool.perform (.intern handle text) = .ok (.name name,
      { pool with tables := pool.tables.setIfInBounds holding.table table' }) := by
  -- The name is the one settled beforehand, and the table is the one entered.
  cases hn : table.nameFor text with
  | error e => simp [SymbolTable.intern, Except.map, hn] at interned
  | ok n =>
    simp only [SymbolTable.intern, Except.map, hn, Except.ok.injEq, Prod.mk.injEq] at interned
    obtain ⟨rfl, rfl⟩ := interned
    -- The handle reaches the table at the position that is written.
    have here : pool.tables[holding.table]? = some table := by
      unfold find at found
      grind
    have written : pool.tables.modify holding.table (·.enter text n)
        = pool.tables.setIfInBounds holding.table (table.enter text n) := by
      apply Array.ext_getElem?
      intro i
      rw [Array.getElem?_modify, Array.getElem?_setIfInBounds]
      grind
    simp only [perform, found, hn, bind, Except.bind, pure, Except.pure, written]

end Pool

end ScopedAnnotations.SymbolTable
