import Mathlib.Data.Finset.Card
import Mathlib.Data.List.Forall2
import ScopedAnnotations.SymbolTable
import ScopedAnnotations.Proofs.Refusal

/-!
# Texts and their numbers

A symbol table writes every new text twice, at the end of the one store and
under a key of the other, and nothing in the two writes says that the stores
agree. They do as long as the number written under the key is the position
written to (`SymbolTable.Inverse.push`), which is how interning chooses it.

What a table has come to is decided by what has arrived. The texts stand in
the order of their first arrival, behind the empty one, and the second store
says where (`SymbolTable.Lists`). One step of interning keeps it so
(`SymbolTable.Lists.intern`), hence so does a run, and as arrivals only ever
add to the end, a name given early in a run means the same for the rest of it.
-/

namespace ScopedAnnotations

namespace SymbolTable

/-! ## Arrivals -/

/-- The texts in the order in which they arrived for the first time. The empty
one was there before any other. -/
def arrivals (texts : List String) : List String := ("" :: texts).eraseDups

/-- How many different texts there are, not counting the empty one. -/
def distinctCount (texts : List String) : Nat := (texts.toFinset.erase "").card

theorem mem_arrivals {text : String} {texts : List String} :
    text ∈ arrivals texts ↔ text = "" ∨ text ∈ texts := by
  unfold arrivals
  rw [List.mem_eraseDups, List.mem_cons]

theorem arrivals_prefix_append (earlier later : List String) :
    arrivals earlier <+: arrivals (earlier ++ later) :=
  ⟨_, List.eraseDups_append.symm⟩

/-- Later arrivals do not disturb earlier ones. -/
theorem getElem?_arrivals_append {earlier : List String} {i : Nat} {text : String}
    (h : (arrivals earlier)[i]? = some text) (later : List String) :
    (arrivals (earlier ++ later))[i]? = some text := by
  obtain ⟨hlt, rfl⟩ := List.getElem?_eq_some_iff.mp h
  exact List.prefix_iff_getElem?.mp (arrivals_prefix_append earlier later) i hlt

/-- A text that has arrived before does not take another place. -/
theorem arrivals_concat_of_mem {text : String} {texts : List String}
    (h : text ∈ arrivals texts) : arrivals (texts ++ [text]) = arrivals texts := by
  unfold arrivals at *
  rw [List.mem_eraseDups] at h
  rw [← List.cons_append, List.eraseDups_append, List.cons_removeAll, List.contains_eq_mem,
    decide_eq_true h, if_neg nofun]
  exact List.append_nil _

/-- A text that has not takes the next one. -/
theorem arrivals_concat_of_notMem {text : String} {texts : List String}
    (h : text ∉ arrivals texts) : arrivals (texts ++ [text]) = arrivals texts ++ [text] := by
  unfold arrivals at *
  rw [List.mem_eraseDups] at h
  rw [← List.cons_append, List.eraseDups_append, List.cons_removeAll, List.contains_eq_mem,
    decide_eq_false h, if_pos rfl]
  rfl

theorem nodup_arrivals (texts : List String) : (arrivals texts).Nodup := by
  induction texts using List.reverseRecOn with
  | nil => exact List.nodup_singleton ""
  | append_singleton texts text ih =>
    by_cases h : text ∈ arrivals texts
    · rw [arrivals_concat_of_mem h]
      exact ih
    · rw [arrivals_concat_of_notMem h, ← List.concat_eq_append]
      exact ih.concat h

theorem length_arrivals (texts : List String) :
    (arrivals texts).length = 1 + distinctCount texts := by
  have htoFinset : (arrivals texts).toFinset = insert "" (texts.toFinset.erase "") := by
    ext text
    rw [List.mem_toFinset, mem_arrivals, Finset.mem_insert, Finset.mem_erase, List.mem_toFinset]
    tauto
  rw [← List.toFinset_card_of_nodup (nodup_arrivals texts), htoFinset,
    Finset.card_insert_of_notMem (Finset.notMem_erase "" _), Nat.add_comm]
  rfl

theorem distinctCount_eq_zero_iff {texts : List String} :
    distinctCount texts = 0 ↔ ∀ text ∈ texts, text = "" := by
  unfold distinctCount
  rw [Finset.card_eq_zero, Finset.eq_empty_iff_forall_notMem]
  refine forall_congr' (fun text => ?_)
  rw [Finset.mem_erase, List.mem_toFinset]
  tauto

theorem distinctCount_mono {texts texts' : List String} (h : texts ⊆ texts') :
    distinctCount texts ≤ distinctCount texts' := by
  refine Finset.card_le_card (Finset.erase_subset_erase "" (fun text ht => ?_))
  rw [List.mem_toFinset] at ht ⊢
  exact h ht

theorem distinctCount_le_append (earlier later : List String) :
    distinctCount earlier ≤ distinctCount (earlier ++ later) :=
  distinctCount_mono (List.subset_append_left earlier later)

/-- **Where a text stands**: behind the empty one and all the texts that
arrived before it did for the first time. -/
theorem getElem?_arrivals {text : String} {texts : List String} (hmem : text ∈ texts)
    (hne : text ≠ "") :
    (arrivals texts)[1 + distinctCount (texts.takeWhile (· ≠ text))]? = some text := by
  obtain ⟨before, after, rfl, hnew⟩ := List.eq_append_cons_of_mem hmem
  have hbefore : (before ++ text :: after).takeWhile (· ≠ text) = before := by
    have hdiffer (t : String) (ht : t ∈ before) : decide (t ≠ text) = true :=
      decide_eq_true (ne_of_mem_of_not_mem ht hnew)
    rw [List.takeWhile_append_of_pos hdiffer, List.takeWhile_cons_of_neg (by simp),
      List.append_nil]
  have hstands : (arrivals (before ++ [text]))[(arrivals before).length]? = some text := by
    rw [arrivals_concat_of_notMem (by rw [mem_arrivals]; tauto)]
    exact List.getElem?_concat_length
  rw [hbefore, ← length_arrivals, List.append_cons]
  exact getElem?_arrivals_append hstands after

/-! ## The two stores -/

section Stores

variable {table table' : SymbolTable} {text : String} {name : Name}

/-- **What interning does**: it returns the name of a listed text, and gives a
new one the next number, which has to be a number, and the place at the end. -/
theorem intern_eq_ok_iff :
    table.intern text = .ok (name, table')
      ↔ (table.find? text = some name ∧ table' = table)
        ∨ (table.find? text = none ∧ table.size < UInt32.size
          ∧ name.raw.toNat = table.size ∧ table' = table.push text name) := by
  cases hfind : table.find? text with
  | some found =>
    rw [intern_of_find? hfind, Except.ok.injEq, Prod.mk.injEq, Option.some_inj,
      eq_comm (a := table)]
    exact (or_iff_left (fun h => Option.some_ne_none found h.1)).symm
  | none =>
    rw [or_iff_right (fun h => Option.some_ne_none name h.1.symm), and_iff_right rfl]
    by_cases room : table.size < UInt32.size
    · rw [intern_of_find?_eq_none hfind room, Except.ok.injEq, Prod.mk.injEq, and_iff_right room]
      have hnext : (⟨UInt32.ofNat table.size⟩ : Name) = name ↔ name.raw.toNat = table.size := by
        constructor
        · rintro rfl
          exact UInt32.toNat_ofNat_of_lt' room
        · intro h
          refine Name.ext (UInt32.toNat_inj.mp ?_)
          rw [h]
          exact UInt32.toNat_ofNat_of_lt' room
      constructor
      · rintro ⟨rfl, rfl⟩
        exact ⟨hnext.mp rfl, rfl⟩
      · rintro ⟨hname, rfl⟩
        obtain rfl := hnext.mpr hname
        exact ⟨rfl, rfl⟩
    · have hrefused : table.intern text = .error (.overflow table.size) := by
        simp only [intern, nameFor, hfind, if_neg room]
        rfl
      rw [hrefused]
      refine iff_of_false (fun h => ?_) (fun h => room h.1)
      cases h

/-- The position at which the second store says a text stands. -/
def position? (table : SymbolTable) (text : String) : Option Nat :=
  (table.find? text).map fun name => name.raw.toNat

/-- **The two stores are inverse to each other**: the second says that a text
stands where the first has it, and says so of all the texts there. -/
def Inverse (table : SymbolTable) : Prop :=
  ∀ text i, table.position? text = some i ↔ table.strings[i]? = some text

theorem find?_eq_some_iff_position? :
    table.find? text = some name ↔ table.position? text = some name.raw.toNat := by
  unfold position?
  rw [Option.map_eq_some_iff]
  constructor
  · intro h
    exact ⟨name, h, rfl⟩
  · rintro ⟨other, h, hraw⟩
    rw [h, Name.ext (UInt32.toNat_inj.mp hraw)]

theorem position?_push (text' : String) :
    (table.push text name).position? text'
      = if text = text' then some name.raw.toNat else table.position? text' := by
  unfold position? find? push
  rw [Std.ExtTreeMap.getElem?_insert]
  by_cases h : text = text'
  · rw [if_pos h, if_pos (Std.compare_eq_iff_eq.mpr h)]
    rfl
  · rw [if_neg h, if_neg (fun hc => h (Std.compare_eq_iff_eq.mp hc))]

/-- A text has the name that interning it returned. -/
theorem find?_of_intern (h : table.intern text = .ok (name, table')) :
    table'.find? text = some name := by
  rcases intern_eq_ok_iff.mp h with ⟨hfind, rfl⟩ | ⟨-, -, -, rfl⟩
  · exact hfind
  · rw [find?_eq_some_iff_position?, position?_push, if_pos rfl]

namespace Inverse

theorem find?_eq_some_iff (h : table.Inverse) :
    table.find? text = some name ↔ table.strings[name.raw.toNat]? = some text := by
  rw [find?_eq_some_iff_position?, h]

theorem find?_eq_none_iff (h : table.Inverse) :
    table.find? text = none ↔ text ∉ table.strings.toList := by
  have hposition : table.find? text = none ↔ table.position? text = none :=
    Option.map_eq_none_iff.symm
  rw [hposition, Option.eq_none_iff_forall_ne_some, List.mem_iff_getElem?, not_exists]
  refine forall_congr' (fun i => not_congr ?_)
  rw [h, Array.getElem?_toList]

/-- **Writing a new text to both stores keeps them inverse**, as long as the
number under the key is the position at the end. -/
theorem push (h : table.Inverse) (hnew : table.find? text = none)
    (hname : name.raw.toNat = table.size) : (table.push text name).Inverse := by
  intro text' i
  rw [position?_push, hname]
  show _ ↔ (table.strings.push text)[i]? = some text'
  rw [Array.getElem?_push]
  by_cases hi : i = table.strings.size
  · -- At the end there is the new text, and no other text is said to stand there.
    rw [if_pos hi, hi, Option.some_inj]
    by_cases ht : text = text'
    · rw [if_pos ht]
      exact iff_of_true rfl ht
    · rw [if_neg ht, h, Array.getElem?_size]
      exact iff_of_false nofun ht
  · -- Everywhere else is as before, and the new text was not there.
    rw [if_neg hi, ← h]
    by_cases ht : text = text'
    · have hnone : table.position? text' = none := by
        rw [← ht, position?, hnew]
        rfl
      rw [if_pos ht, hnone]
      exact iff_of_false (fun hsize => hi (Option.some_inj.mp hsize).symm) nofun
    · rw [if_neg ht]

/-- Interning keeps the stores inverse. -/
theorem intern (h : table.Inverse) (hintern : table.intern text = .ok (name, table')) :
    table'.Inverse := by
  rcases intern_eq_ok_iff.mp hintern with ⟨-, rfl⟩ | ⟨hnew, -, hname, rfl⟩
  · exact h
  · exact h.push hnew hname

/-- A name that was given out looks up to the text it was given to. -/
theorem lookUp_of_find? (h : table.Inverse) (hfind : table.find? text = some name) :
    table.lookUp name = text := by
  unfold lookUp
  rw [Array.getD_eq_getD_getElem?, h.find?_eq_some_iff.mp hfind, Option.getD_some]

/-- A name whose number was given out is the name of what it looks up to. -/
theorem find?_lookUp (h : table.Inverse) (hlt : name.raw.toNat < table.size) :
    table.find? (table.lookUp name) = some name := by
  rw [h.find?_eq_some_iff]
  unfold lookUp
  rw [Array.getD_eq_getD_getElem?, Array.getElem?_eq_getElem hlt, Option.getD_some]

end Inverse

end Stores

/-! ## Growing -/

section Growing

variable {table table' table'' : SymbolTable} {text : String} {name : Name}

/-- Whether a table gave out a name. -/
def Knows (table : SymbolTable) (name : Name) : Prop := name.raw.toNat < table.size

instance (table : SymbolTable) (name : Name) : Decidable (table.Knows name) :=
  inferInstanceAs (Decidable (_ < _))

/-- **One table grows into another**: the texts of the one stand in the other
where they stood, and all others come after them. -/
def GrowsInto (table table' : SymbolTable) : Prop :=
  table.strings.toList <+: table'.strings.toList

namespace GrowsInto

theorem refl (table : SymbolTable) : table.GrowsInto table := List.prefix_rfl

theorem trans (h : table.GrowsInto table') (h' : table'.GrowsInto table'') :
    table.GrowsInto table'' := List.IsPrefix.trans h h'

theorem getElem?_strings (h : table.GrowsInto table') {i : Nat}
    (hi : table.strings[i]? = some text) : table'.strings[i]? = some text := by
  rw [← Array.getElem?_toList] at hi ⊢
  obtain ⟨hlt, rfl⟩ := List.getElem?_eq_some_iff.mp hi
  exact List.prefix_iff_getElem?.mp h i hlt

/-- **A name that is known keeps its text.** -/
theorem lookUp_eq (h : table.GrowsInto table') (known : table.Knows name) :
    table'.lookUp name = table.lookUp name := by
  have hstands := Array.getElem?_eq_getElem known
  unfold lookUp
  rw [Array.getD_eq_getD_getElem?, Array.getD_eq_getD_getElem?, h.getElem?_strings hstands, hstands]

/-- A text that has a name keeps it. -/
theorem find?_eq (h : table.GrowsInto table') (hinverse : table.Inverse)
    (hinverse' : table'.Inverse) (hfind : table.find? text = some name) :
    table'.find? text = some name :=
  hinverse'.find?_eq_some_iff.mpr (h.getElem?_strings (hinverse.find?_eq_some_iff.mp hfind))

end GrowsInto

/-- Interning makes a table grow, if it changes it at all. -/
theorem growsInto_of_intern (h : table.intern text = .ok (name, table')) :
    table.GrowsInto table' := by
  rcases intern_eq_ok_iff.mp h with ⟨-, rfl⟩ | ⟨-, -, -, rfl⟩
  · exact .refl table'
  · show table.strings.toList <+: (table.strings.push text).toList
    rw [Array.toList_push]
    exact List.prefix_append _ _

end Growing

/-! ## What a table has come to -/

/-- **The table lists what has arrived**, in one store in the order of arrival
and in the other by number. -/
structure Lists (table : SymbolTable) (texts : List String) : Prop where
  strings_eq : table.strings.toList = arrivals texts
  inverse : table.Inverse

theorem lists_empty : empty.Lists [] where
  strings_eq := rfl
  inverse := by
    -- The empty text is written to two empty stores like any other.
    have hblank : (⟨#[], ∅⟩ : SymbolTable).Inverse := fun _ _ => iff_of_false nofun nofun
    exact hblank.push rfl rfl

namespace Lists

variable {table table' : SymbolTable} {texts earlier later : List String} {text : String}
  {name : Name}

theorem size_eq (h : table.Lists texts) : table.size = 1 + distinctCount texts := by
  rw [← length_arrivals, ← h.strings_eq]
  exact Array.length_toList.symm

theorem find?_eq_some_iff (h : table.Lists texts) :
    table.find? text = some name ↔ (arrivals texts)[name.raw.toNat]? = some text := by
  rw [h.inverse.find?_eq_some_iff, ← h.strings_eq, Array.getElem?_toList]

theorem find?_eq_none_iff (h : table.Lists texts) :
    table.find? text = none ↔ text ∉ arrivals texts := by
  rw [h.inverse.find?_eq_none_iff, h.strings_eq]

/-- **A name means the same for the rest of a run.** -/
theorem find?_append (h : table.Lists earlier) (h' : table'.Lists (earlier ++ later))
    (hfind : table.find? text = some name) : table'.find? text = some name :=
  h'.find?_eq_some_iff.mpr (getElem?_arrivals_append (h.find?_eq_some_iff.mp hfind) later)

/-- A text that has arrived has a name. -/
theorem exists_find? (h : table.Lists texts) (hmem : text ∈ texts) :
    ∃ name, table.find? text = some name := by
  refine Option.ne_none_iff_exists'.mp (fun hnone => ?_)
  exact h.find?_eq_none_iff.mp hnone (mem_arrivals.mpr (.inr hmem))

/-- **It has meant the same since the text arrived.** -/
theorem find?_of_append (h : table.Lists earlier) (h' : table'.Lists (earlier ++ later))
    (hmem : text ∈ earlier) (hfind : table'.find? text = some name) :
    table.find? text = some name := by
  obtain ⟨name', hbefore⟩ := h.exists_find? hmem
  rw [← hfind, h.find?_append h' hbefore, hbefore]

/-- The number of a text is the place at which it stands. -/
theorem number_eq_of_getElem? (h : table.Lists texts) (hfind : table.find? text = some name)
    {i : Nat} (hi : (arrivals texts)[i]? = some text) : name.raw.toNat = i := by
  have hposition := find?_eq_some_iff_position?.mp hfind
  rw [← h.strings_eq, Array.getElem?_toList, ← h.inverse, hposition] at hi
  exact Option.some_inj.mp hi

/-- **Numbers are given out in the order of first arrival**, after the one that
the empty text has. -/
theorem number_eq (h : table.Lists texts) (hmem : text ∈ texts)
    (hfind : table.find? text = some name) :
    name.raw.toNat
      = if text = "" then 0 else 1 + distinctCount (texts.takeWhile (· ≠ text)) := by
  by_cases hempty : text = ""
  · rw [if_pos hempty]
    refine h.number_eq_of_getElem? hfind ?_
    rw [arrivals, List.eraseDups_cons, hempty]
    rfl
  · rw [if_neg hempty]
    exact h.number_eq_of_getElem? hfind (getElem?_arrivals hmem hempty)

/-- The last text that a table lists has a number, so there is one for every
text. -/
theorem distinctCount_lt (h : table.Lists texts) : distinctCount texts < UInt32.size := by
  have hlast : distinctCount texts < table.strings.size := by
    have hsize := h.size_eq
    unfold size at hsize
    omega
  have hposition := (h.inverse _ _).mpr (Array.getElem?_eq_getElem hlast)
  obtain ⟨name, -, hname⟩ := Option.map_eq_some_iff.mp hposition
  rw [← hname]
  exact name.raw.toNat_lt

/-- **One text more.** The table that interning leaves lists the text as well. -/
theorem of_intern (h : table.Lists texts) (hintern : table.intern text = .ok (name, table')) :
    table'.Lists (texts ++ [text]) := by
  refine ⟨?_, h.inverse.intern hintern⟩
  rcases intern_eq_ok_iff.mp hintern with ⟨hfind, rfl⟩ | ⟨hnew, -, -, rfl⟩
  · have hmem : text ∈ arrivals texts := by
      by_contra hnew
      rw [h.find?_eq_none_iff.mpr hnew] at hfind
      cases hfind
    rw [h.strings_eq, arrivals_concat_of_mem hmem]
  · rw [arrivals_concat_of_notMem (h.find?_eq_none_iff.mp hnew), ← h.strings_eq]
    exact Array.toList_push

/-- Interning goes well as long as there is a number for every text so far. -/
theorem intern (h : table.Lists texts) (text : String)
    (room : distinctCount (texts ++ [text]) < UInt32.size) :
    ∃ name table', table.intern text = .ok (name, table')
      ∧ table'.Lists (texts ++ [text]) ∧ table'.find? text = some name := by
  obtain ⟨name, table', hintern⟩ : ∃ name table', table.intern text = .ok (name, table') := by
    cases hfind : table.find? text with
    | some name => exact ⟨name, table, intern_of_find? hfind⟩
    | none =>
      have hlength := congrArg List.length
        (arrivals_concat_of_notMem (h.find?_eq_none_iff.mp hfind))
      rw [length_arrivals, List.length_append, length_arrivals, List.length_singleton] at hlength
      exact ⟨_, _, intern_of_find?_eq_none hfind (by rw [h.size_eq]; omega)⟩
  exact ⟨name, table', hintern, h.of_intern hintern, find?_of_intern hintern⟩

end Lists

end SymbolTable

/-! ## Runs -/

namespace InternM

/-- Intern texts one after another. -/
def names (texts : List String) : InternM (List Name) := texts.mapM InternM.name

variable {start middle last : SymbolTable}

theorem run_names_cons {text : String} {texts : List String} {name : Name} {ns : List Name}
    (hname : start.intern text = .ok (name, middle))
    (hnames : (names texts).run middle = .ok (ns, last)) :
    (names (text :: texts)).run start = .ok (name :: ns, last) := by
  unfold names
  rw [List.mapM_cons]
  exact bind_eq_ok_iff.mpr ⟨_, hname, bind_eq_ok_iff.mpr ⟨_, hnames, rfl⟩⟩

theorem run_names_append {earlier later : List String} {ns ms : List Name}
    (hearlier : (names earlier).run start = .ok (ns, middle))
    (hlater : (names later).run middle = .ok (ms, last)) :
    (names (earlier ++ later)).run start = .ok (ns ++ ms, last) := by
  unfold names
  rw [List.mapM_append]
  exact bind_eq_ok_iff.mpr ⟨_, hearlier, bind_eq_ok_iff.mpr ⟨_, hlater, rfl⟩⟩

end InternM

namespace SymbolTable

/-- **A run**, from any table on: it succeeds as long as there is a number for
every text, and at its end every text of it has the name it was given. -/
theorem Lists.run_names {table : SymbolTable} {earlier : List String} (h : table.Lists earlier)
    (later : List String) (room : distinctCount (earlier ++ later) < UInt32.size) :
    ∃ names table', (InternM.names later).run table = .ok (names, table')
      ∧ table'.Lists (earlier ++ later)
      ∧ List.Forall₂ (fun text name => table'.find? text = some name) later names := by
  induction later generalizing table earlier with
  | nil => exact ⟨[], table, rfl, by rwa [List.append_nil], .nil⟩
  | cons text later ih =>
    rw [List.append_cons] at room ⊢
    have hroom := lt_of_le_of_lt (distinctCount_le_append (earlier ++ [text]) later) room
    obtain ⟨name, middle, hname, hmiddle, hfind⟩ := h.intern text hroom
    obtain ⟨names, last, hnames, hlast, hall⟩ := ih hmiddle room
    exact ⟨name :: names, last, InternM.run_names_cons hname hnames, hlast,
      .cons (hmiddle.find?_append hlast hfind) hall⟩

/-- **Texts and numbers correspond.** The texts of a run, the names they were
given in it, and the table it ended with. -/
structure Numbered (texts : List String) (names : List Name) (table : SymbolTable) : Prop where
  nodup : table.strings.toList.Nodup
  first : table.strings[0]? = some ""
  inverse : table.Inverse
  length_eq : names.length = texts.length
  /-- Two names are equal exactly when their texts are. -/
  name_eq_iff : ∀ text name text' name', (text, name) ∈ texts.zip names →
    (text', name') ∈ texts.zip names → (name = name' ↔ text = text')
  /-- Numbers are given out in the order of first arrival. -/
  number_eq : ∀ text name, (text, name) ∈ texts.zip names → name.raw.toNat
    = if text = "" then 0 else 1 + distinctCount (texts.takeWhile (· ≠ text))
  lookUp_eq : ∀ text name, (text, name) ∈ texts.zip names → table.lookUp name = text
  /-- No number is unused below the size of the table. -/
  intern_lookUp : ∀ name : Name, name.raw.toNat < table.size →
    table.intern (table.lookUp name) = .ok (name, table)
  lookUp_stray : ∀ name : Name, table.size ≤ name.raw.toNat → table.lookUp name = ""
  size_eq : table.size = 1 + distinctCount texts
  isEmpty_iff : table.isEmpty = true ↔ ∀ text ∈ texts, text = ""

/-- In a table that lists the texts of a run, the names of the run are
numbered. -/
theorem Lists.numbered {table : SymbolTable} {texts : List String} {names : List Name}
    (h : table.Lists texts)
    (hnames : List.Forall₂ (fun text name => table.find? text = some name) texts names) :
    Numbered texts names table := by
  have hfind {text : String} {name : Name} (hc : (text, name) ∈ texts.zip names) :
      table.find? text = some name := List.forall₂_zip hnames hc
  exact
    { nodup := by
        rw [h.strings_eq]
        exact nodup_arrivals texts
      first := by
        rw [← Array.getElem?_toList, h.strings_eq, arrivals, List.eraseDups_cons]
        rfl
      inverse := h.inverse
      length_eq := hnames.length_eq.symm
      name_eq_iff := by
        intro text name text' name' hc hc'
        constructor
        · rintro rfl
          rw [← h.inverse.lookUp_of_find? (hfind hc), h.inverse.lookUp_of_find? (hfind hc')]
        · rintro rfl
          exact Option.some_inj.mp ((hfind hc).symm.trans (hfind hc'))
      number_eq := fun text name hc => h.number_eq (List.of_mem_zip hc).1 (hfind hc)
      lookUp_eq := fun text name hc => h.inverse.lookUp_of_find? (hfind hc)
      intern_lookUp := fun name hlt => intern_of_find? (h.inverse.find?_lookUp hlt)
      lookUp_stray := fun name hle => lookUp_of_size_le hle
      size_eq := h.size_eq
      isEmpty_iff := by
        rw [← distinctCount_eq_zero_iff, isEmpty, decide_eq_true_iff, h.size_eq]
        omega }

/-- **Interning numbers texts.** However a run from the empty table is cut in
two, it succeeds if there is a number for every text, and both at the cut and
at the end the texts so far and the numbers below the size of the table
correspond. The names given out before the cut still look up to their texts
at the end. -/
theorem run_names_numbered (earlier later : List String)
    (room : distinctCount (earlier ++ later) < UInt32.size) :
    ∃ names table, (InternM.names earlier).run empty = .ok (names, table)
      ∧ Numbered earlier names table
      ∧ ∃ names' table', (InternM.names later).run table = .ok (names', table')
        ∧ (InternM.names (earlier ++ later)).run empty = .ok (names ++ names', table')
        ∧ Numbered (earlier ++ later) (names ++ names') table'
        ∧ ∀ text name, (text, name) ∈ earlier.zip names → table'.lookUp name = text := by
  have hroom := lt_of_le_of_lt (distinctCount_le_append earlier later) room
  obtain ⟨names, table, hrun, hlists, hnames⟩ := lists_empty.run_names earlier hroom
  obtain ⟨names', table', hrun', hlists', hnames'⟩ := hlists.run_names later room
  -- A name given before the cut is still that of its text.
  have hkept := hnames.imp (fun _ _ hfind => hlists.find?_append hlists' hfind)
  refine ⟨names, table, hrun, hlists.numbered hnames, names', table', hrun',
    InternM.run_names_append hrun hrun', hlists'.numbered (List.rel_append hkept hnames'), ?_⟩
  intro text name hc
  exact hlists'.inverse.lookUp_of_find? (List.forall₂_zip hkept hc)

/-- A run that repeats itself before and after the cut. -/
theorem run_names_numbered_repeated :
    let earlier := ["x", "", "y", "x"]
    let later := ["y", "z"]
    distinctCount (earlier ++ later) < UInt32.size
      ∧ ∃ names table, (InternM.names earlier).run empty = .ok (names, table)
        ∧ Numbered earlier names table
        ∧ ∃ names' table', (InternM.names later).run table = .ok (names', table')
          ∧ (InternM.names (earlier ++ later)).run empty = .ok (names ++ names', table')
          ∧ Numbered (earlier ++ later) (names ++ names') table'
          ∧ ∀ text name, (text, name) ∈ earlier.zip names → table'.lookUp name = text := by
  intro earlier later
  have room : distinctCount (earlier ++ later) < UInt32.size := by decide
  exact ⟨room, run_names_numbered earlier later room⟩

end SymbolTable

end ScopedAnnotations
