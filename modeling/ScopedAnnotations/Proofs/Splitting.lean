import ScopedAnnotations.Text.Term

/-!
# Where the text of a term ends

The text of a term is put together without any escapes. Parts stand side by side
with a bracket or a comma between them, numbers have as many digits as it takes,
and one word may begin another. That the parts can be told apart again is
therefore a fact about what may stand next to what, and it cannot be said of a
text by itself, as the text of a term is usually in the middle of another one.
What is said is how a text *begins*: whatever follows, there is only one term
that the text can begin with (`Term.eq_of_render_append`).

Something has to be asked of what follows. The brackets of a call, a record or a
list show where it ends, but a number or a bare word goes on as long as there are
characters for it, and a bracket behind a word would make it a call. So after
these two there has to be something that *delimits* them. It is always there: a
term that is part of another one is followed by a comma, by a closing bracket, or
by the blank before a closing brace, and a term that is not is followed by
nothing.

The other condition is on the labels. They are *identifiers*, and so they have no
punctuation in them and do not look like numbers.
-/

namespace ScopedAnnotations.Term

/-! ## Words -/

/-- A character that words are made of: a letter, a digit or an underscore. -/
def isWordChar (c : Char) : Bool := c.isAlphanum || c == '_'

/-- **An identifier**: characters of a word, the first of which is no digit. -/
def isIdentifier (text : String) : Bool :=
  (text.toList.head?.map Char.isDigit == some false) && text.toList.all isWordChar

theorem head?_of_isIdentifier {text : String} (h : isIdentifier text = true) :
    text.toList.head?.map Char.isDigit = some false := by
  rw [isIdentifier, Bool.and_eq_true] at h
  exact eq_of_beq h.1

theorem isWordChar_of_isIdentifier {text : String} (h : isIdentifier text = true) :
    ∀ c ∈ text.toList, isWordChar c = true := by
  rw [isIdentifier, Bool.and_eq_true] at h
  exact List.all_eq_true.mp h.2

theorem ne_nil_of_isIdentifier {text : String} (h : isIdentifier text = true) :
    text.toList ≠ [] := by
  intro hnil
  have hhead := head?_of_isIdentifier h
  rw [hnil] at hhead
  cases hhead

theorem isWordChar_of_mem_toDigits {n : Nat} : ∀ c ∈ Nat.toDigits 10 n, isWordChar c = true := by
  intro c hc
  have hdigit : c.isDigit = true := Nat.isDigit_of_mem_toDigits (by decide) (by decide) hc
  rw [isWordChar, Char.isAlphanum, hdigit, Bool.or_true, Bool.true_or]

/-- Decimal digits say which number it is. -/
theorem toDigits_inj {m n : Nat} (h : Nat.toDigits 10 m = Nat.toDigits 10 n) : m = n := by
  rw [← Nat.ofDigitChars_ten_toDigits (n := m), h, Nat.ofDigitChars_ten_toDigits]

/-- **A word ends where its characters do.** Two texts that begin with words and
go on with something else begin with the same word if they are the same. -/
theorem eq_of_word_append {l l' rest rest' : List Char}
    (hl : ∀ c ∈ l, isWordChar c = true) (hl' : ∀ c ∈ l', isWordChar c = true)
    (hrest : ∀ c ∈ rest.head?, isWordChar c = false)
    (hrest' : ∀ c ∈ rest'.head?, isWordChar c = false) (h : l ++ rest = l' ++ rest') :
    l = l' ∧ rest = rest' := by
  have hword {l rest : List Char} (hl : ∀ c ∈ l, isWordChar c = true)
      (hrest : ∀ c ∈ rest.head?, isWordChar c = false) :
      (l ++ rest).takeWhile isWordChar = l := by
    rw [List.takeWhile_append_of_pos hl]
    cases rest with
    | nil => exact List.append_nil l
    | cons c cs => rw [List.takeWhile_cons_of_neg (by simp [hrest c rfl]), List.append_nil]
  have heq : l = l' := by rw [← hword hl hrest, h, hword hl' hrest']
  subst heq
  exact ⟨rfl, List.append_cancel_left h⟩

/-- A text that begins with a word does not begin with anything else. -/
theorem head?_word_append_ne {l rest : List Char} {c : Char} (hne : l ≠ [])
    (hl : ∀ c ∈ l, isWordChar c = true) (hc : isWordChar c = false) :
    (l ++ rest).head? ≠ some c := by
  cases l with
  | nil => exact absurd rfl hne
  | cons d ds =>
    rintro ⟨⟩
    exact absurd ((hl c List.mem_cons_self).symm.trans hc) nofun

theorem head?_identifier_append_ne {label : String} (h : isIdentifier label = true)
    (rest : List Char) {c : Char} (hc : isWordChar c = false) :
    (label.toList ++ rest).head? ≠ some c :=
  head?_word_append_ne (ne_nil_of_isIdentifier h) (isWordChar_of_isIdentifier h) hc

/-! ## What a term may stand in front of -/

/-- **What ends a word or a number**: nothing that the word or the number would go
on with, and no bracket that would make a call or a record of the word. -/
structure Delimits (rest : List Char) : Prop where
  /-- The word does not go on. -/
  word : ∀ c ∈ rest.head?, isWordChar c = false
  /-- The word is not the head of a call. -/
  call : rest.head? ≠ some '('
  /-- The word is not the head of a record. -/
  record : ¬ " \x7b".toList <+: rest

theorem delimits_nil : Delimits [] := ⟨nofun, nofun, by decide⟩

/-- The characters that end whatever is in front of them. -/
theorem delimits_cons {c : Char} {rest : List Char} (h : c ∈ [',', ')', ']']) :
    Delimits (c :: rest) := by
  have hnone : isWordChar c = false ∧ c ≠ '(' ∧ c ≠ ' ' := by
    simp only [List.mem_cons, List.not_mem_nil, or_false] at h
    rcases h with rfl | rfl | rfl <;> decide
  obtain ⟨hword, hcall, hblank⟩ := hnone
  refine ⟨by rintro d ⟨⟩; exact hword, by rintro ⟨⟩; exact hcall rfl, ?_⟩
  rintro ⟨tail, heq⟩
  exact hblank (List.cons.inj heq).1.symm

theorem delimits_closing (hidden : Bool) (rest : List Char) :
    Delimits (closing hidden ++ rest) := by
  cases hidden with
  | true => exact delimits_cons (by decide)
  | false =>
    -- A blank may stand in front of either brace.
    refine ⟨by rintro d ⟨⟩; decide, nofun, ?_⟩
    rintro ⟨tail, h⟩
    exact absurd (List.cons.inj (List.cons.inj h).2).1 (by decide)

/-- Brackets show the end of what is in them; numbers and bare words have to be
delimited. -/
def EndsBefore : Term → List Char → Prop
  | number _, rest | word _, rest => Delimits rest
  | call .., _ | record .., _ | list _, _ => True

theorem Delimits.endsBefore {rest : List Char} (h : Delimits rest) (t : Term) :
    t.EndsBefore rest := by
  cases t with
  | number n => exact h
  | word text => exact h
  | call head arg => trivial
  | record head fields hidden => trivial
  | list items => trivial

mutual

/-- **A term whose labels are identifiers**, at every depth. -/
def WellLabelled : Term → Prop
  | number _ => True
  | word text => isIdentifier text = true
  | call head arg => isIdentifier head = true ∧ arg.WellLabelled
  | record head fields _ => isIdentifier head = true ∧ WellLabelledFields fields
  | list items => WellLabelledItems items

/-- Labelled parts with identifiers for labels. -/
def WellLabelledFields : List (String × Term) → Prop
  | [] => True
  | (label, t) :: fields =>
    isIdentifier label = true ∧ t.WellLabelled ∧ WellLabelledFields fields

/-- Items whose labels are identifiers. -/
def WellLabelledItems : List Term → Prop
  | [] => True
  | t :: ts => t.WellLabelled ∧ WellLabelledItems ts

end

/-! ## How the text of a term begins -/

/-- The forms that a term may have. -/
inductive Form where
  | number
  | word
  | call
  | record
  | list

/-- The form of a term. -/
def form : Term → Form
  | number _ => .number
  | word _ => .word
  | call .. => .call
  | record .. => .record
  | list _ => .list

/-- The word or the number at the beginning of a term. -/
def lead : Term → List Char
  | number n => Nat.toDigits 10 n
  | word text => text.toList
  | call head _ => head.toList
  | record head _ _ => head.toList
  | list _ => []

/-- What follows the word or the number at the beginning of a term. -/
def body : Term → List Char
  | number _ | word _ => []
  | call _ arg => '(' :: (arg.render ++ [')'])
  | record _ fields hidden => " \x7b ".toList ++ (renderFields fields ++ closing hidden)
  | list items => '[' :: (renderItems items ++ [']'])

theorem render_eq (t : Term) : t.render = t.lead ++ t.body := by
  cases t with
  | number n => exact (List.append_nil _).symm
  | word text => exact (List.append_nil _).symm
  | call head arg => rfl
  | record head fields hidden => rfl
  | list items => rfl

theorem isWordChar_of_mem_lead {t : Term} (ht : t.WellLabelled) :
    ∀ c ∈ t.lead, isWordChar c = true := by
  cases t with
  | number n => exact isWordChar_of_mem_toDigits
  | word text => exact isWordChar_of_isIdentifier ht
  | call head arg => exact isWordChar_of_isIdentifier ht.1
  | record head fields hidden => exact isWordChar_of_isIdentifier ht.1
  | list items => exact nofun

/-- The word at the beginning ends where the rest of the term begins. -/
theorem head?_body_append {t : Term} {rest : List Char} (ht : t.EndsBefore rest) :
    ∀ c ∈ (t.body ++ rest).head?, isWordChar c = false := by
  cases t with
  | number n => exact ht.word
  | word text => exact ht.word
  | call head arg => rintro c ⟨⟩; decide
  | record head fields hidden => rintro c ⟨⟩; decide
  | list items => rintro c ⟨⟩; decide

/-- **What the form of a term is read off from**: the first character of its word,
if there is one, and the two characters behind the word. -/
def formAt (lead rest : List Char) : Form :=
  match lead.head?.map Char.isDigit with
  | none => .list
  | some true => .number
  | some false =>
    if rest.head? = some '(' then .call
    else if " \x7b".toList <+: rest then .record
    else .word

theorem formAt_lead_body {t : Term} {rest : List Char} (ht : t.WellLabelled)
    (hrest : t.EndsBefore rest) : formAt t.lead (t.body ++ rest) = t.form := by
  cases t with
  | number n =>
    obtain ⟨c, cs, hdigits⟩ := List.exists_cons_of_ne_nil (Nat.toDigits_ne_nil (n := n) (b := 10))
    have hc : c.isDigit = true := Nat.isDigit_of_mem_toDigits (n := n) (b := 10) (by decide)
      (by decide) (hdigits ▸ List.mem_cons_self)
    rw [formAt, lead, hdigits, List.head?_cons, Option.map_some, hc]
    rfl
  | word text =>
    rw [formAt, lead, head?_of_isIdentifier ht]
    exact (if_neg hrest.call).trans (if_neg hrest.record)
  | call head arg =>
    rw [formAt, lead, head?_of_isIdentifier ht.1]
    rfl
  | record head fields hidden =>
    rw [formAt, lead, head?_of_isIdentifier ht.1]
    have hbrace : " \x7b".toList <+: (record head fields hidden).body ++ rest := ⟨_, rfl⟩
    exact (if_neg nofun).trans (if_pos hbrace)
  | list items => rfl

/-- **Texts that begin with terms** and are the same begin with terms of the same
form, with the same word or number in front. -/
theorem form_lead_body_eq {t u : Term} {r s : List Char} (ht : t.WellLabelled)
    (hu : u.WellLabelled) (hr : t.EndsBefore r) (hs : u.EndsBefore s)
    (h : t.render ++ r = u.render ++ s) :
    t.form = u.form ∧ t.lead = u.lead ∧ t.body ++ r = u.body ++ s := by
  rw [render_eq, render_eq, List.append_assoc, List.append_assoc] at h
  obtain ⟨hlead, hbody⟩ := eq_of_word_append (isWordChar_of_mem_lead ht)
    (isWordChar_of_mem_lead hu) (head?_body_append hr) (head?_body_append hs) h
  refine ⟨?_, hlead, hbody⟩
  rw [← formAt_lead_body ht hr, hlead, hbody, formAt_lead_body hu hs]

/-! ## Lists and labelled parts

Whether there is a first item, or a first labelled part, is seen from the first
character: it is not the one that closes the bracket. After that, the first one
is like the others, which have a comma in front. -/

theorem head?_render_append_ne {t : Term} (ht : t.WellLabelled) (rest : List Char) :
    (t.render ++ rest).head? ≠ some ']' := by
  have hword (hne : t.lead ≠ []) : (t.render ++ rest).head? ≠ some ']' := by
    rw [render_eq, List.append_assoc]
    exact head?_word_append_ne hne (isWordChar_of_mem_lead ht) (by decide)
  cases t with
  | number n => exact hword Nat.toDigits_ne_nil
  | word text => exact hword (ne_nil_of_isIdentifier ht)
  | call head arg => exact hword (ne_nil_of_isIdentifier ht.1)
  | record head fields hidden => exact hword (ne_nil_of_isIdentifier ht.1)
  | list items => exact nofun

theorem closing_append_inj {hidden hidden' : Bool} {r s : List Char}
    (h : closing hidden ++ r = closing hidden' ++ s) : hidden = hidden' ∧ r = s := by
  cases hidden <;> cases hidden'
  · exact ⟨rfl, List.append_cancel_left h⟩
  · exact absurd (List.cons.inj h).1 (by decide)
  · exact absurd (List.cons.inj h).1 (by decide)
  · exact ⟨rfl, List.append_cancel_left h⟩

/-- What closes a record does not begin like a labelled part. -/
theorem closing_append_ne_label {hidden : Bool} {label : String}
    (hlabel : isIdentifier label = true) (r rest : List Char) :
    closing hidden ++ r ≠ label.toList ++ rest := by
  intro h
  have hhead := (congrArg List.head? h).symm
  cases hidden with
  | true => exact head?_identifier_append_ne hlabel rest (by decide) hhead
  | false => exact head?_identifier_append_ne hlabel rest (by decide) hhead

/-- Nor does it begin like one with a comma in front: after the comma it has dots
where the label would be. -/
theorem closing_append_ne_comma {hidden : Bool} {label : String}
    (hlabel : isIdentifier label = true) (r rest : List Char) :
    closing hidden ++ r ≠ ", ".toList ++ (label.toList ++ rest) := by
  intro h
  cases hidden with
  | true =>
    have hdots : ".. \x7d".toList ++ r = label.toList ++ rest :=
      (List.cons.inj (List.cons.inj h).2).2
    exact head?_identifier_append_ne hlabel rest (by decide) (congrArg List.head? hdots).symm
  | false => exact absurd (List.cons.inj h).1 (by decide)

theorem delimits_renderMoreFields (fields : List (String × Term)) (hidden : Bool)
    (rest : List Char) : Delimits (renderMoreFields fields ++ (closing hidden ++ rest)) := by
  cases fields with
  | nil => exact delimits_closing hidden rest
  | cons field fields => exact delimits_cons (by decide)

theorem delimits_renderMoreItems (ts : List Term) (rest : List Char) :
    Delimits (renderMoreItems ts ++ ']' :: rest) := by
  cases ts with
  | nil => exact delimits_cons (by decide)
  | cons t ts => exact delimits_cons (by decide)

/-- The items of a list may as well all have a comma in front. -/
theorem renderMoreItems_append_eq {ts us : List Term} {r s : List Char}
    (ht : WellLabelledItems ts) (hu : WellLabelledItems us)
    (h : renderItems ts ++ ']' :: r = renderItems us ++ ']' :: s) :
    renderMoreItems ts ++ ']' :: r = renderMoreItems us ++ ']' :: s := by
  cases ts with
  | nil =>
    cases us with
    | nil => exact h
    | cons u us =>
      rw [renderItems, renderItems, List.append_assoc] at h
      exact absurd (congrArg List.head? h).symm (head?_render_append_ne hu.1 _)
  | cons t ts =>
    cases us with
    | nil =>
      rw [renderItems, renderItems, List.append_assoc] at h
      exact absurd (congrArg List.head? h) (head?_render_append_ne ht.1 _)
    | cons u us => exact congrArg (", ".toList ++ ·) h

/-- So may the parts of a record. -/
theorem renderMoreFields_append_eq {fields fields' : List (String × Term)}
    {hidden hidden' : Bool} {r s : List Char} (ht : WellLabelledFields fields)
    (hu : WellLabelledFields fields')
    (h : renderFields fields ++ (closing hidden ++ r)
      = renderFields fields' ++ (closing hidden' ++ s)) :
    renderMoreFields fields ++ (closing hidden ++ r)
      = renderMoreFields fields' ++ (closing hidden' ++ s) := by
  cases fields with
  | nil =>
    cases fields' with
    | nil => exact h
    | cons field fields' =>
      rw [renderFields, renderFields, List.append_assoc] at h
      exact absurd h (closing_append_ne_label hu.1 _ _)
  | cons field fields =>
    cases fields' with
    | nil =>
      rw [renderFields, renderFields, List.append_assoc] at h
      exact absurd h.symm (closing_append_ne_label ht.1 _ _)
    | cons field' fields' => exact congrArg (", ".toList ++ ·) h

/-! ## Only one term that a text begins with -/

mutual

/-- **A text begins with one term at most.** -/
theorem eq_of_render_append : ∀ (t u : Term) {r s : List Char}, t.WellLabelled → u.WellLabelled →
    t.EndsBefore r → u.EndsBefore s → t.render ++ r = u.render ++ s → t = u ∧ r = s
  | number m, u, r, s, ht, hu, hr, hs, h => by
    obtain ⟨hform, hlead, hbody⟩ := form_lead_body_eq ht hu hr hs h
    cases u with
    | number n => exact ⟨congrArg number (toDigits_inj hlead), hbody⟩
    | _ => cases hform
  | word text, u, r, s, ht, hu, hr, hs, h => by
    obtain ⟨hform, hlead, hbody⟩ := form_lead_body_eq ht hu hr hs h
    cases u with
    | word text' => exact ⟨congrArg word (String.toList_inj.mp hlead), hbody⟩
    | _ => cases hform
  | call head arg, u, r, s, ht, hu, hr, hs, h => by
    obtain ⟨hform, hlead, hbody⟩ := form_lead_body_eq ht hu hr hs h
    cases u with
    | call head' arg' =>
      obtain rfl := String.toList_inj.mp hlead
      simp only [body, List.cons_append, List.append_assoc, List.nil_append, List.cons.injEq,
        true_and] at hbody
      have hbracket (rest : List Char) : Delimits (')' :: rest) := delimits_cons (by decide)
      obtain ⟨rfl, hrest⟩ := eq_of_render_append arg arg' ht.2 hu.2
        ((hbracket r).endsBefore arg) ((hbracket s).endsBefore arg') hbody
      exact ⟨rfl, (List.cons.inj hrest).2⟩
    | _ => cases hform
  | record head fields hidden, u, r, s, ht, hu, hr, hs, h => by
    obtain ⟨hform, hlead, hbody⟩ := form_lead_body_eq ht hu hr hs h
    cases u with
    | record head' fields' hidden' =>
      obtain rfl := String.toList_inj.mp hlead
      simp only [body, List.append_assoc, List.append_cancel_left_eq] at hbody
      obtain ⟨rfl, rfl, rfl⟩ := eq_of_renderMoreFields_append fields fields' ht.2 hu.2
        (renderMoreFields_append_eq ht.2 hu.2 hbody)
      exact ⟨rfl, rfl⟩
    | _ => cases hform
  | list items, u, r, s, ht, hu, hr, hs, h => by
    obtain ⟨hform, hlead, hbody⟩ := form_lead_body_eq ht hu hr hs h
    cases u with
    | list items' =>
      simp only [body, List.cons_append, List.append_assoc, List.nil_append, List.cons.injEq,
        true_and] at hbody
      obtain ⟨rfl, rfl⟩ := eq_of_renderMoreItems_append items items' ht hu
        (renderMoreItems_append_eq ht hu hbody)
      exact ⟨rfl, rfl⟩
    | _ => cases hform

/-- The labelled parts after the first. -/
theorem eq_of_renderMoreFields_append : ∀ (fields fields' : List (String × Term))
    {hidden hidden' : Bool} {r s : List Char}, WellLabelledFields fields →
    WellLabelledFields fields' →
    renderMoreFields fields ++ (closing hidden ++ r)
      = renderMoreFields fields' ++ (closing hidden' ++ s) →
    fields = fields' ∧ hidden = hidden' ∧ r = s
  | [], [], hidden, hidden', r, s, _, _, h => ⟨rfl, closing_append_inj h⟩
  | [], (label, u) :: fields', hidden, hidden', r, s, _, hu, h => by
    rw [renderMoreFields, renderMoreFields, List.append_assoc, List.append_assoc] at h
    exact absurd h (closing_append_ne_comma hu.1 _ _)
  | (label, t) :: fields, [], hidden, hidden', r, s, ht, _, h => by
    rw [renderMoreFields, renderMoreFields, List.append_assoc, List.append_assoc] at h
    exact absurd h.symm (closing_append_ne_comma ht.1 _ _)
  | (label, t) :: fields, (label', u) :: fields', hidden, hidden', r, s, ht, hu, h => by
    simp only [renderMoreFields, List.append_assoc, List.append_cancel_left_eq] at h
    -- The label ends at the colon, and what it labels at the comma or the brace behind it.
    obtain ⟨hlabel, hpart⟩ := eq_of_word_append (isWordChar_of_isIdentifier ht.1)
      (isWordChar_of_isIdentifier hu.1) (by rintro c ⟨⟩; decide) (by rintro c ⟨⟩; decide) h
    obtain rfl := String.toList_inj.mp hlabel
    obtain ⟨rfl, hrest⟩ := eq_of_render_append t u ht.2.1 hu.2.1
      ((delimits_renderMoreFields _ _ _).endsBefore t)
      ((delimits_renderMoreFields _ _ _).endsBefore u) (List.append_cancel_left hpart)
    obtain ⟨rfl, rfl, rfl⟩ := eq_of_renderMoreFields_append fields fields' ht.2.2 hu.2.2 hrest
    exact ⟨rfl, rfl, rfl⟩

/-- The items of a list after the first. -/
theorem eq_of_renderMoreItems_append : ∀ (ts us : List Term) {r s : List Char},
    WellLabelledItems ts → WellLabelledItems us →
    renderMoreItems ts ++ ']' :: r = renderMoreItems us ++ ']' :: s → ts = us ∧ r = s
  | [], [], r, s, _, _, h => ⟨rfl, (List.cons.inj h).2⟩
  | [], u :: us, r, s, _, _, h => absurd (List.cons.inj h).1 (by decide)
  | t :: ts, [], r, s, _, _, h => absurd (List.cons.inj h).1 (by decide)
  | t :: ts, u :: us, r, s, ht, hu, h => by
    simp only [renderMoreItems, List.append_assoc, List.append_cancel_left_eq] at h
    obtain ⟨rfl, hrest⟩ := eq_of_render_append t u ht.1 hu.1
      ((delimits_renderMoreItems _ _).endsBefore t)
      ((delimits_renderMoreItems _ _).endsBefore u) h
    obtain ⟨rfl, rfl⟩ := eq_of_renderMoreItems_append ts us ht.2 hu.2 hrest
    exact ⟨rfl, rfl⟩

end

/-- A word that nothing delimits may turn out to be the head of a call. -/
example : (word "Some").render ++ "(Any)".toList = (call "Some" (word "Any")).render := by decide

/-- A word that is no identifier may look like a call. -/
example : (word "Some(Any)").render = (call "Some" (word "Any")).render := by decide

end ScopedAnnotations.Term
