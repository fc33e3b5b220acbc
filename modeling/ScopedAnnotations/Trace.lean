import ScopedAnnotations.Scope

/-!
# Records of what was done

Making an index and merging two of them leave records behind, so that someone
who wonders why a type did not take effect can see which annotations went in
and which were left out. Records are part of what these operations give back.
A *traced* value is a value together with the records of making it, in order,
and making one traced value out of others puts their records one after
another.

Records are grouped by *spans*. Opening a span is itself a record, and every
record made while it is open says so, along with the spans around it.
-/

namespace ScopedAnnotations

/-- A stretch of work that records are grouped by. -/
inductive Span where
  /-- Making an index. -/
  | build
  /-- Merging a block's annotations into those around it, given how many there
  are of each. -/
  | merge (outer inner : Nat)
  deriving DecidableEq, Repr

/-- Something that happened. -/
inductive Event where
  /-- An annotation of this kind was filed. -/
  | classified (kind : Kind)
  /-- An index of this many annotations was finished. -/
  | indexed (count : Nat)
  /-- This many annotations around a block were left out because they belong
  to another block. -/
  | dropped (count : Nat)
  /-- A merge was refused. -/
  | rejected (error : IndexError)
  deriving DecidableEq

/-- What a record is about. -/
inductive Entry where
  /-- A span was opened. -/
  | opened (span : Span)
  /-- Something happened. -/
  | event (event : Event)
  deriving DecidableEq

/-- One record. -/
structure Record where
  /-- The spans that were open, outermost first. -/
  within : List Span
  /-- What the record is about. -/
  entry : Entry
  deriving DecidableEq

/-! ## What a record shows

A record is read by the level of detail it belongs to, the part of the work it
comes from, and its labelled fields. -/

/-- How much detail a record is part of. -/
inductive Level where
  /-- One record per operation or so. -/
  | debug
  /-- One record per annotation. -/
  | trace
  deriving DecidableEq, Repr

/-- The part of the work that a record comes from. -/
inductive Origin where
  /-- Making an index. -/
  | indexing
  /-- Merging two of them. -/
  | merging
  deriving DecidableEq, Repr

/-- The content of a labelled field. -/
inductive FieldValue where
  /-- A count. -/
  | number (n : Nat)
  /-- A text. -/
  | text (s : String)
  deriving DecidableEq, Repr

namespace Span

/-- The word for a span. -/
def label : Span → String
  | build => "build"
  | merge .. => "merge_block_scope"

/-- Every span is opened once per operation. -/
def level : Span → Level
  | build | merge .. => .debug

/-- Where a span is opened. -/
def origin : Span → Origin
  | build => .indexing
  | merge .. => .merging

/-- The fields of a span. -/
def fields : Span → List (String × FieldValue)
  | build => []
  | merge outer inner => [("outer", .number outer), ("inner", .number inner)]

end Span

namespace Event

/-- What an event says happened. -/
def message : Event → String
  | classified _ => "classify annotation"
  | indexed _ => "indexed annotations"
  | dropped _ => "dropping outer block-scoped annotations"
  | rejected _ => "rejected block scope merge"

/-- There is an event for each annotation filed; all others are rare. -/
def level : Event → Level
  | classified _ => .trace
  | indexed _ | dropped _ | rejected _ => .debug

/-- Where an event happens. -/
def origin : Event → Origin
  | classified _ | indexed _ => .indexing
  | dropped _ | rejected _ => .merging

/-- The fields of an event, apart from its message. -/
def fields : Event → List (String × FieldValue)
  | classified kind => [("kind", .text kind.label)]
  | indexed count => [("count", .number count)]
  | dropped count => [("dropped", .number count)]
  | rejected error => [("err", .text (toString error))]

end Event

/-! ## Traced values -/

/-- A value and the records of making it. -/
@[ext]
structure Traced (α : Type) where
  /-- The value. -/
  value : α
  /-- The records, in the order they were made. -/
  records : List Record

namespace Traced

instance : Monad Traced where
  pure a := ⟨a, []⟩
  bind t f :=
    let next := f t.value
    ⟨next.value, t.records ++ next.records⟩

/-- Record that something happened. -/
def emit (event : Event) : Traced Unit := ⟨(), [⟨[], .event event⟩]⟩

/-- Do something inside a span. Opening the span is recorded first, and
every record of what follows says that it was made inside. -/
def inside {α : Type} (span : Span) (t : Traced α) : Traced α where
  value := t.value
  records := ⟨[], .opened span⟩ ::
    t.records.map fun record => { record with within := span :: record.within }

/-- A traced value that carries along where it came from. -/
def attach {α : Type} (t : Traced α) : Traced { a : α // a = t.value } :=
  ⟨⟨t.value, rfl⟩, t.records⟩

variable {α β : Type}

@[simp]
theorem value_pure (a : α) : (pure a : Traced α).value = a := rfl

@[simp]
theorem records_pure (a : α) : (pure a : Traced α).records = [] := rfl

@[simp]
theorem value_bind (t : Traced α) (f : α → Traced β) :
    (t >>= f).value = (f t.value).value := rfl

@[simp]
theorem records_bind (t : Traced α) (f : α → Traced β) :
    (t >>= f).records = t.records ++ (f t.value).records := rfl

@[simp]
theorem value_map (f : α → β) (t : Traced α) : (f <$> t).value = f t.value := rfl

@[simp]
theorem records_map (f : α → β) (t : Traced α) : (f <$> t).records = t.records :=
  List.append_nil _

@[simp]
theorem records_emit (event : Event) : (emit event).records = [⟨[], .event event⟩] := rfl

@[simp]
theorem value_inside (span : Span) (t : Traced α) : (inside span t).value = t.value := rfl

@[simp]
theorem value_attach (t : Traced α) : t.attach.value.val = t.value := rfl

@[simp]
theorem records_attach (t : Traced α) : t.attach.records = t.records := rfl

instance : LawfulMonad Traced := LawfulMonad.mk' Traced
  (fun t => by ext1 <;> simp) (fun _ _ => by ext1 <;> simp) (fun _ _ _ => by ext1 <;> simp)

end Traced

end ScopedAnnotations
