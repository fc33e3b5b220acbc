/-!
# Names

Identifiers, module segments and type names recur all over a body of
annotations, so nothing downstream of the symbol table handles their text.
A *name* is the number the table gave to a text; two names from one table are
equal exactly when their texts are, and comparing them never looks at a
character.

A name does not know its table. A number that no table gave out is still a
name – it merely has no text – and every function that asks for the text has
to say what it does with such a stray.
-/

namespace ScopedAnnotations

/-- A text, known by its number in a symbol table. -/
structure Name where
  /-- The position of the text in its table. -/
  raw : UInt32
  deriving DecidableEq, Hashable, Repr

namespace Name

/-- The name of the empty text, which every table lists first. -/
def empty : Name := ⟨0⟩

instance : Inhabited Name := ⟨empty⟩

@[simp]
theorem raw_empty : empty.raw = 0 := rfl

@[ext]
theorem ext {m n : Name} (h : m.raw = n.raw) : m = n := by
  cases m; cases n; simp_all

/-! ## The order of names

Names are ordered by number. The order says nothing about the texts: it is
the order in which a table first met them. -/

instance : Ord Name := ⟨fun m n => compare m.raw n.raw⟩

theorem compare_def (m n : Name) : compare m n = compare m.raw n.raw := rfl

instance : Std.TransOrd Name where
  eq_swap := by
    intro m n
    simp only [compare_def]
    exact Std.OrientedCmp.eq_swap
  isLE_trans := by
    intro l m n h h'
    simp only [compare_def] at *
    exact Std.TransCmp.isLE_trans h h'

instance : Std.LawfulEqOrd Name where
  compare_self := by
    intro n
    simp only [compare_def]
    exact Std.ReflCmp.compare_self
  eq_of_compare := by
    intro m n h
    simp only [compare_def] at h
    exact ext (Std.LawfulEqCmp.eq_of_compare h)

end Name

end ScopedAnnotations
