/-!
# Labelled terms

For messages and for debugging, every value can be shown as a text that says
how the value is made: the name of its constructor and, in brackets, what it
was given. Such a text is written in two steps. A value first becomes a
*labelled term*, a small tree that knows nothing of the value's type; then the
tree is written out. All the punctuation is in this module, and everything
about a type is in the way its values become terms.

The text is made as a list of characters, the form in which it can be taken
apart again.
-/

namespace ScopedAnnotations

/-- A tree of labels and numbers that stands for a value. -/
inductive Term where
  /-- A number, in decimal. -/
  | number (n : Nat)
  /-- A bare word: `None`, `true`. -/
  | word (text : String)
  /-- A word applied to one thing: `Some(x)`. -/
  | call (head : String) (arg : Term)
  /-- A word with labelled parts: `Head { a: x, b: y }`. If `hidden` is set
  there are parts that are not shown, and `..` stands for them. -/
  | record (head : String) (fields : List (String × Term)) (hidden : Bool)
  /-- A list: `[x, y]`. -/
  | list (items : List Term)

namespace Term

/-- What follows the last part of a record. -/
def closing (hidden : Bool) : List Char := (if hidden then ", .. \x7d" else " \x7d").toList

mutual

/-- The characters of a term. -/
def render : Term → List Char
  | number n => Nat.toDigits 10 n
  | word text => text.toList
  | call head arg => head.toList ++ '(' :: (arg.render ++ [')'])
  | record head fields hidden =>
    head.toList ++ (" \x7b ".toList ++ (renderFields fields ++ closing hidden))
  | list items => '[' :: (renderItems items ++ [']'])

/-- The characters of labelled parts, with commas between them. -/
def renderFields : List (String × Term) → List Char
  | [] => []
  | (label, t) :: fields =>
    label.toList ++ (": ".toList ++ (t.render ++ renderMoreFields fields))

/-- The characters of the labelled parts after the first. -/
def renderMoreFields : List (String × Term) → List Char
  | [] => []
  | (label, t) :: fields =>
    ", ".toList ++ (label.toList ++ (": ".toList ++ (t.render ++ renderMoreFields fields)))

/-- The characters of the items of a list, with commas between them. -/
def renderItems : List Term → List Char
  | [] => []
  | t :: ts => t.render ++ renderMoreItems ts

/-- The characters of the items after the first. -/
def renderMoreItems : List Term → List Char
  | [] => []
  | t :: ts => ", ".toList ++ (t.render ++ renderMoreItems ts)

end

/-- The text of a term. -/
def text (t : Term) : String := String.ofList t.render

end Term

/-- Types whose values can be shown as terms. -/
class Describable (α : Type) where
  /-- The term that stands for a value. -/
  term : α → Term

export Describable (term)

/-- The text that says how a value is made. -/
def describe {α : Type} [Describable α] (value : α) : String := (term value).text

/-! ## Truth values, options and lists -/

instance : Describable Bool := ⟨fun b => .word (if b then "true" else "false")⟩

instance {α : Type} [Describable α] : Describable (Option α) where
  term
    | none => .word "None"
    | some a => .call "Some" (term a)

instance {α : Type} [Describable α] : Describable (List α) where
  term as := .list (as.map term)

end ScopedAnnotations
