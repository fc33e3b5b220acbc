import Std.Data.ExtTreeMap
import ScopedAnnotations.Name

/-!
# Symbol tables

A *symbol table* hands out names for texts and gives the texts back. It is
two stores that must stay inverse to each other: the texts in the order in
which they arrived, read by number, and the numbers by text.

Interning a text that is already listed changes nothing and returns the
number it has; a new text goes to the end. So numbers are dense, the first
text to arrive gets the first free number, and no number is ever given away
again. Number zero belongs to the empty text from the start.

Two things a table refuses to make a fuss about. A number it never gave out
looks up to the empty text rather than failing, because names are compared
and printed in places that have no way to report a stray one. And a table
counts as empty as long as it lists nothing but the empty text.
-/

namespace ScopedAnnotations

/-- The texts met so far and their numbers. -/
structure SymbolTable where
  /-- The texts, each at the position its number says. -/
  strings : Array String
  /-- The name of every listed text. -/
  ids : Std.ExtTreeMap String Name

/-- Interning fails in one way only: every number is taken. -/
inductive InternError where
  /-- The table already lists `count` texts and there is no number left. -/
  | overflow (count : Nat)
  deriving DecidableEq, Repr

instance : ToString InternError where
  toString
    | .overflow count =>
      "interner exceeded capacity: " ++ toString count ++ " strings, max is "
        ++ toString (UInt32.size - 1)

namespace SymbolTable

/-- The table that lists the empty text and nothing else. -/
def empty : SymbolTable where
  strings := #[""]
  ids := (∅ : Std.ExtTreeMap String Name).insert "" Name.empty

instance : Inhabited SymbolTable := ⟨empty⟩

/-- How many texts are listed, the empty one included. -/
def size (table : SymbolTable) : Nat := table.strings.size

/-- Whether the table lists nothing but the empty text. -/
def isEmpty (table : SymbolTable) : Bool := decide (table.size ≤ 1)

/-- The text of a name; a name this table never gave out has the empty
text. -/
def lookUp (table : SymbolTable) (name : Name) : String :=
  table.strings.getD name.raw.toNat ""

/-- The name of a text, if the text is listed. Reading never changes the
table, which is why many readers may do it at once. -/
def find? (table : SymbolTable) (text : String) : Option Name := table.ids[text]?

/-- List a text at the end, under the given name. -/
def push (table : SymbolTable) (text : String) (name : Name) : SymbolTable where
  strings := table.strings.push text
  ids := table.ids.insert text name

/-- The name that interning a text gives it: the one it has if it is listed,
and the next free number if it is not, provided there is one. -/
def nameFor (table : SymbolTable) (text : String) : Except InternError Name :=
  match table.find? text with
  | some name => .ok name
  | none =>
    -- The next number is the number of texts, provided it is a number at all.
    if table.size < UInt32.size then .ok ⟨UInt32.ofNat table.size⟩
    else .error (.overflow table.size)

/-- List a text under the given name, unless the text is listed already. -/
def enter (table : SymbolTable) (text : String) (name : Name) : SymbolTable :=
  match table.find? text with
  | some _ => table
  | none => table.push text name

/-- The name of a text, listing it first if need be. The text is looked
for before anything is written, so a caller that has already looked in vain
may safely call this at any later time: if someone else listed the text in
between, their number is returned and the table stays as it is. -/
def intern (table : SymbolTable) (text : String) :
    Except InternError (Name × SymbolTable) :=
  (table.nameFor text).map fun name => (name, table.enter text name)

/-! ## First facts -/

@[simp]
theorem size_empty : empty.size = 1 := rfl

@[simp]
theorem lookUp_empty (name : Name) : empty.lookUp name = "" := by
  unfold lookUp empty
  rcases h : name.raw.toNat with _ | k <;> simp [Array.getD]

@[simp]
theorem size_push (table : SymbolTable) (text : String) (name : Name) :
    (table.push text name).size = table.size + 1 := by
  simp [size, push]

/-- A listed text keeps its name. -/
theorem nameFor_of_find? {table : SymbolTable} {text : String} {name : Name}
    (h : table.find? text = some name) : table.nameFor text = .ok name := by
  simp [nameFor, h]

/-- A new text gets the next number, as long as there is room. -/
theorem nameFor_of_find?_eq_none {table : SymbolTable} {text : String}
    (h : table.find? text = none) (room : table.size < UInt32.size) :
    table.nameFor text = .ok ⟨UInt32.ofNat table.size⟩ := by
  simp [nameFor, h, room]

/-- Entering a listed text changes nothing, whatever the name given. -/
theorem enter_of_find? {table : SymbolTable} {text : String} {name : Name}
    (h : table.find? text = some name) (given : Name) : table.enter text given = table := by
  simp [enter, h]

/-- Entering a new text puts it at the end. -/
theorem enter_of_find?_eq_none {table : SymbolTable} {text : String}
    (h : table.find? text = none) (name : Name) :
    table.enter text name = table.push text name := by
  simp [enter, h]

/-- Interning a listed text returns its name and leaves the table alone. -/
theorem intern_of_find? {table : SymbolTable} {text : String} {name : Name}
    (h : table.find? text = some name) : table.intern text = .ok (name, table) := by
  simp [intern, Except.map, nameFor_of_find? h, enter_of_find? h]

/-- Interning a new text into a table with room takes the next number. -/
theorem intern_of_find?_eq_none {table : SymbolTable} {text : String}
    (h : table.find? text = none) (room : table.size < UInt32.size) :
    table.intern text
      = .ok (⟨UInt32.ofNat table.size⟩, table.push text ⟨UInt32.ofNat table.size⟩) := by
  simp [intern, Except.map, nameFor_of_find?_eq_none h room, enter_of_find?_eq_none h]

/-- A number past the end looks up to the empty text. -/
theorem lookUp_of_size_le {table : SymbolTable} {name : Name}
    (h : table.size ≤ name.raw.toNat) : table.lookUp name = "" := by
  simp only [size] at h
  simp [lookUp, Array.getD, Nat.not_lt.mpr h]

end SymbolTable

/-! ## Interning as one goes -/

/-- Work that interns texts along the way: it passes a table on and stops at
the first text that does not fit. -/
abbrev InternM := StateT SymbolTable (Except InternError)

/-- The name of a text, in the table being passed on. -/
def InternM.name (text : String) : InternM Name := fun table => table.intern text

end ScopedAnnotations
