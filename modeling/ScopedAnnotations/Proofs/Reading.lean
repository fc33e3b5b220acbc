import ScopedAnnotations.Proofs.Aliasing
import ScopedAnnotations.Proofs.CanonicalForm

/-!
# Reading a path back

A path is a list of numbers, and only its text says anything to a person. What
can be made of the text? The separators say where the segments end, a separator
in front says that the path starts at the root, and the symbol table knows the
number of every segment. So the path can be read back from its text – as long
as the segments are *legible*: a segment that is empty or has a colon in it
makes separators appear where there are none, and paths that differ may then be
displayed alike.

Whether a segment is known to the table does not come in separately. A number
that was never given out has the empty text, and that is not legible.

The text is cut where separators are found, from left to right, and that is not
always where they were put: behind a segment that ends in a colon a separator is
found too early. What has to be shown is that in segments without colons none
begins, so that the search goes on to the end of the segment
(`Separator.map_copy_split`).
-/

namespace ScopedAnnotations

/-! ## Cutting a text at the separators

Positions in a text are known by the text that is before them and the text that
is still to come. -/

namespace Separator

open String.Slice String.Slice.Pattern String.Slice.Pattern.Model

instance strict : StrictPatternModel "::" := ForwardStringSearcher.strictPatternModel (by decide)

instance lawful : LawfulToForwardSearcherModel "::" :=
  ForwardStringSearcher.lawfulToForwardSearcherModel (by decide)

variable {s : String.Slice} {start stop : s.Pos} {before piece rest : String}

/-- There is a position behind the next piece. -/
theorem exists_splits_append (h : start.Splits before (piece ++ rest)) :
    ∃ stop : s.Pos, stop.Splits (before ++ piece) rest := by
  have happend : s.copy = before ++ piece ++ rest := h.eq_append.trans String.append_assoc.symm
  exact ⟨_, Pos.splits_ofEqAppend happend⟩

theorem le_of_splits (h : start.Splits before (piece ++ rest))
    (h' : stop.Splits (before ++ piece) rest) : start ≤ stop :=
  (h.le_iff_exists_eq_append h').mpr ⟨piece, rfl, rfl⟩

/-- What is between the two positions is the piece. -/
theorem copy_subslice (h : start.Splits before (piece ++ rest))
    (h' : stop.Splits (before ++ piece) rest) :
    (s.subslice start stop (le_of_splits h h')).copy = piece := by
  obtain ⟨_, hcopy⟩ := copy_slice_eq_iff_splits.mpr ⟨_, _, h, h'⟩
  exact hcopy

/-- **No separator begins in a piece without colons.** -/
theorem not_matchesAt {p : s.Pos} (h : start.Splits before (piece ++ rest))
    (h' : stop.Splits (before ++ piece) rest) (hpiece : ':' ∉ piece.toList) (hle : start ≤ p)
    (hlt : p < stop) : ¬ MatchesAt "::" p := by
  rw [ForwardStringSearcher.matchesAt_iff_splits]
  rintro ⟨passed, left, hp⟩
  obtain ⟨u, rfl, -⟩ := (h.le_iff_exists_eq_append hp).mp hle
  obtain ⟨v, hv, happend, hleft⟩ := (hp.lt_iff_exists_eq_append h').mp hlt
  -- The position is inside the piece, and the rest of the piece begins with a colon.
  obtain rfl : piece = u ++ v :=
    (String.append_right_inj before).mp (happend.trans String.append_assoc)
  cases hlist : v.toList with
  | nil => exact hv (String.toList_eq_nil_iff.mp hlist)
  | cons c cs =>
    have hcolon := congrArg String.toList hleft
    rw [String.toList_append, String.toList_append, hlist] at hcolon
    obtain rfl : ':' = c := (List.cons.inj hcolon).1
    refine hpiece ?_
    rw [String.toList_append, hlist]
    exact List.mem_append_right _ List.mem_cons_self

/-- The search goes on to the end of a piece without colons. -/
theorem split_eq_split_of_splits (h : start.Splits before (piece ++ rest))
    (h' : stop.Splits (before ++ piece) rest) (hpiece : ':' ∉ piece.toList) :
    Model.split "::" start start (Std.le_refl _)
      = Model.split "::" start stop (le_of_splits h h') :=
  split_eq_of_not_matchesAt _ (le_of_splits h h') (fun _ => not_matchesAt h h' hpiece)

/-- **Pieces without colons are found again** between the separators that were
put there. -/
theorem map_copy_split {pieces : List String} (hne : pieces ≠ [])
    (hpieces : ∀ piece ∈ pieces, ':' ∉ piece.toList)
    (h : start.Splits before ("::".intercalate pieces)) :
    (Model.split "::" start start (Std.le_refl _)).map Subslice.copy = pieces := by
  induction pieces generalizing start before with
  | nil => exact absurd rfl hne
  | cons piece pieces ih =>
    obtain ⟨hpiece, hpieces⟩ := List.forall_mem_cons.mp hpieces
    cases pieces with
    | nil =>
      rw [String.intercalate_singleton, ← String.append_empty (s := piece)] at h
      obtain ⟨stop, hstop⟩ := exists_splits_append h
      obtain rfl := hstop.eq_endPos_iff.mpr rfl
      rw [split_eq_split_of_splits h hstop hpiece, split_endPos, List.map_singleton,
        copy_subslice h hstop]
    | cons next pieces =>
      rw [String.intercalate_cons_cons, String.append_assoc] at h
      obtain ⟨stop, hstop⟩ := exists_splits_append h
      obtain ⟨onward, honward⟩ := exists_splits_append hstop
      have hmatch : IsLongestMatchAt "::" stop onward :=
        ForwardStringSearcher.isLongestMatchAt_iff_splits.mpr ⟨_, _, hstop, honward⟩
      rw [split_eq_split_of_splits h hstop hpiece, split_eq_of_isLongestMatchAt hmatch,
        List.map_cons, copy_subslice h hstop, ih (List.cons_ne_nil _ _) hpieces honward]

theorem map_copy_toList_split {pieces : List String} (hne : pieces ≠ [])
    (hpieces : ∀ piece ∈ pieces, ':' ∉ piece.toList) (h : s.copy = "::".intercalate pieces) :
    (s.split "::").toList.map String.Slice.copy = pieces := by
  have hstart : s.startPos.Splits "" ("::".intercalate pieces) := by
    rw [← h]
    exact s.splits_startPos
  rw [toList_split_eq_splitToSubslice, toList_splitToSubslice_eq_modelSplit, List.map_map,
    ← Subslice.copy_eq]
  exact map_copy_split hne hpieces hstart

/-- A separator after every piece but the last is one before every piece but
the first. -/
theorem intercalate_cons (separator piece : String) (pieces : List String) :
    separator.intercalate (piece :: pieces)
      = piece ++ String.join (pieces.map (separator ++ ·)) := by
  induction pieces generalizing piece with
  | nil => simp
  | cons next pieces ih =>
    rw [String.intercalate_cons_cons, ih, List.map_cons, String.join_cons, String.append_assoc,
      String.append_assoc]

/-! ### The separator in front -/

theorem copy_dropPrefix_append (text : String) : (("::" ++ text).dropPrefix "::").copy = text := by
  show ((("::" ++ text).dropPrefix? "::").getD ("::" ++ text).toSlice).copy = text
  cases hdrop : ("::" ++ text).dropPrefix? "::" with
  | none =>
    have hstarts : ("::" ++ text).startsWith "::" = true := by simp
    rw [String.dropPrefix?_eq_dropPrefix?_toSlice, dropPrefix?_eq_none_iff,
      String.startsWith_toSlice, hstarts] at hdrop
    cases hdrop
  | some left =>
    have hleft := String.eq_append_of_dropPrefix?_string_eq_some hdrop
    exact ((String.append_right_inj _).mp hleft).symm

theorem copy_dropPrefix_of_startsWith_eq_false {text : String}
    (h : text.startsWith "::" = false) : (text.dropPrefix "::").copy = text := by
  show ((text.toSlice.dropPrefix? "::").getD text.toSlice).copy = text
  rw [dropPrefix?_eq_none_iff.mpr h, Option.getD_none, String.copy_toSlice]

end Separator

/-! ## Paths -/

namespace QualifiedName

variable {lookUp : Name → String} {p : QualifiedName}

/-- **The texts of the segments of a path as it is written**: what is between
the separators, after one in front has been removed if there is one. -/
def segmentTexts (text : String) : List String :=
  ((text.dropPrefix "::").split "::").toList.map String.Slice.copy

/-- **A path that can be read back**: the text of every segment looks like an
identifier, in that it is not empty and has no colon. -/
def Legible (lookUp : Name → String) (p : QualifiedName) : Prop :=
  ∀ name ∈ p.segments, lookUp name ≠ "" ∧ ':' ∉ (lookUp name).toList

instance (lookUp : Name → String) (p : QualifiedName) : Decidable (p.Legible lookUp) :=
  inferInstanceAs (Decidable (∀ _ ∈ _, _))

/-- **A separator in front says that the path starts at the root.** -/
theorem Legible.startsWith_display (h : p.Legible lookUp) :
    (p.display lookUp).startsWith "::" = p.absolute := by
  cases habs : p.absolute with
  | true =>
    rw [display_of_absolute habs]
    simp
  | false =>
    -- A relative path starts with its first segment, and that one does not start with a colon.
    obtain ⟨name, names, hsegments⟩ := List.exists_cons_of_ne_nil p.segments_ne_nil
    obtain ⟨hne, hcolon⟩ := h name (hsegments ▸ List.mem_cons_self)
    rw [display_of_relative habs, hsegments, List.map_cons, Separator.intercalate_cons,
      String.startsWith_string_eq_false_iff, String.toList_append]
    cases hlist : (lookUp name).toList with
    | nil => exact absurd (String.toList_eq_nil_iff.mp hlist) hne
    | cons c cs =>
      intro hprefix
      obtain ⟨rfl, -⟩ := List.cons_prefix_cons.mp hprefix
      exact hcolon (hlist ▸ List.mem_cons_self)

theorem Legible.segmentTexts_display (h : p.Legible lookUp) :
    segmentTexts (p.display lookUp) = p.segments.map lookUp := by
  refine Separator.map_copy_toList_split (mt List.map_eq_nil_iff.mp p.segments_ne_nil)
    (List.forall_mem_map.mpr (fun name hn => (h name hn).2)) ?_
  rcases Bool.eq_false_or_eq_true p.absolute with habs | hrel
  · rw [display_of_absolute habs, Separator.copy_dropPrefix_append]
  · rw [Separator.copy_dropPrefix_of_startsWith_eq_false (h.startsWith_display.trans hrel),
      display_of_relative hrel]

/-- A path one segment further in is displayed with that segment behind. -/
theorem display_child (lookUp : Name → String) (p : QualifiedName) (name : Name) :
    (p.child name).display lookUp = p.display lookUp ++ "::" ++ lookUp name := by
  rw [display, display, absolute_child, segments_child, List.map_append, List.map_singleton,
    String.intercalate_append_of_ne_nil (mt List.map_eq_nil_iff.mp p.segments_ne_nil)
      (List.cons_ne_nil _ _), String.intercalate_singleton, String.append_assoc,
    String.append_assoc, String.append_assoc]

/-- A relative path is anchored by a separator in front. -/
theorem display_toAbsolute (h : p.absolute = false) :
    p.toAbsolute.display lookUp = "::" ++ p.display lookUp := by
  rw [display_of_absolute p.absolute_toAbsolute, display_of_relative h, segments_toAbsolute]

/-- A separator is written before the first segment of an absolute path, and
before every segment but the first of any path. -/
theorem display_eq_join (lookUp : Name → String) (p : QualifiedName) :
    p.display lookUp = String.join (p.segments.mapIdx fun i name =>
      (if 0 < i ∨ p.absolute = true then "::" else "") ++ lookUp name) := by
  obtain ⟨name, names, hsegments⟩ := List.exists_cons_of_ne_nil p.segments_ne_nil
  have hfirst : (0 < 0 ∨ p.absolute = true) ↔ p.absolute = true := or_iff_right (lt_irrefl 0)
  have hothers (i : Nat) : 0 < i + 1 ∨ p.absolute = true := .inl i.succ_pos
  have hrest : names.mapIdx (fun _ name => "::" ++ lookUp name)
      = names.map (("::" ++ ·) ∘ lookUp) :=
    List.mapIdx_eq_iff.mpr (fun _ => List.getElem?_map)
  rw [display, hsegments, List.map_cons, Separator.intercalate_cons, List.mapIdx_cons]
  simp only [hfirst, hothers, if_true]
  rw [hrest, String.join_cons, String.append_assoc, List.map_map]

end QualifiedName

namespace SymbolTable

/-- Texts that were looked up have the names that they were looked up for, and
interning them adds nothing. -/
theorem Inverse.run_names_lookUp {table : SymbolTable} (h : table.Inverse) {names : List Name}
    (known : ∀ name ∈ names, table.Knows name) :
    (InternM.names (names.map table.lookUp)).run table = .ok (names, table) := by
  induction names with
  | nil => rfl
  | cons name names ih =>
    obtain ⟨hname, hnames⟩ := List.forall_mem_cons.mp known
    exact InternM.run_names_cons (intern_of_find? (h.find?_lookUp hname)) (ih hnames)

/-- A name with a text to it was given out. -/
theorem knows_of_lookUp_ne_empty {table : SymbolTable} {name : Name}
    (h : table.lookUp name ≠ "") : table.Knows name :=
  Nat.lt_of_not_le (mt lookUp_of_size_le h)

end SymbolTable

namespace QualifiedName

variable {table : SymbolTable} {p q : QualifiedName}

/-- **The segments are read back** as the numbers that they are. -/
theorem Legible.run_names_display (h : p.Legible table.lookUp) (hinverse : table.Inverse) :
    (InternM.names (segmentTexts (p.display table.lookUp))).run table = .ok (p.segments, table) := by
  rw [h.segmentTexts_display]
  exact hinverse.run_names_lookUp (fun name hn =>
    SymbolTable.knows_of_lookUp_ne_empty (h name hn).1)

/-- **The text of a legible path says which path it is.** -/
theorem Legible.display_inj (hp : p.Legible table.lookUp) (hq : q.Legible table.lookUp)
    (hinverse : table.Inverse) : p.display table.lookUp = q.display table.lookUp ↔ p = q := by
  refine ⟨fun h => ext ?_ ?_, congrArg (display table.lookUp)⟩
  · have hrun := hp.run_names_display hinverse
    rw [h, hq.run_names_display hinverse, Except.ok.injEq, Prod.mk.injEq] at hrun
    exact hrun.1.symm
  · rw [← hp.startsWith_display, h, hq.startsWith_display]

/-- **A path can be read back from its text.** In a table in which any texts
were interned, whichever they were, the text of a legible path starts with a
separator exactly if the path is absolute, and interning what stands between the
separators gives back the segments and leaves the table as it is. So legible
paths are displayed alike only if they are equal.

Of any other path, with names that are known or not, it can still be said how
its text is put together: the texts of the segments are joined by separators,
with one more in front if the path is absolute, so that a separator stands
before the first segment of an absolute path and before every other segment of
any path. One segment further in, a separator and the text of that segment
follow. A relative path that is anchored gets a single separator in front. -/
theorem display_reads_back (texts : List String) :
    let table := SymbolTable.ofTexts texts
    (∀ p : QualifiedName, p.Legible table.lookUp →
      (p.display table.lookUp).startsWith "::" = p.absolute
      ∧ (InternM.names (segmentTexts (p.display table.lookUp))).run table
        = .ok (p.segments, table))
    ∧ (∀ p q : QualifiedName, p.Legible table.lookUp → q.Legible table.lookUp →
      (p.display table.lookUp = q.display table.lookUp ↔ p = q))
    ∧ ∀ (lookUp : Name → String) (p : QualifiedName),
      p.display lookUp
        = (if p.absolute then "::" else "") ++ "::".intercalate (p.segments.map lookUp)
      ∧ p.display lookUp = String.join (p.segments.mapIdx fun i name =>
          (if 0 < i ∨ p.absolute = true then "::" else "") ++ lookUp name)
      ∧ (∀ name, (p.child name).display lookUp = p.display lookUp ++ "::" ++ lookUp name)
      ∧ (p.absolute = false → p.toAbsolute.display lookUp = "::" ++ p.display lookUp) := by
  intro table
  have hinverse : table.Inverse := SymbolTable.inverse_ofTexts texts
  refine ⟨fun p h => ⟨h.startsWith_display, h.run_names_display hinverse⟩,
    fun p q hp hq => hp.display_inj hq hinverse, fun lookUp p => ⟨rfl, ?_, ?_, ?_⟩⟩
  · exact display_eq_join lookUp p
  · exact display_child lookUp p
  · exact display_toAbsolute

/-- A path from the root and a relative one with the same segments, in a table
of two texts. -/
theorem display_reads_back_nested :
    let table := SymbolTable.ofTexts ["App", "Item"]
    let p := QualifiedName.rooted [⟨1⟩] ⟨2⟩
    let q := QualifiedName.relative [⟨1⟩] ⟨2⟩
    p.Legible table.lookUp ∧ q.Legible table.lookUp
      ∧ (p.display table.lookUp).startsWith "::" = true
      ∧ (InternM.names (segmentTexts (p.display table.lookUp))).run table
        = .ok ([⟨1⟩, ⟨2⟩], table)
      ∧ p.display table.lookUp ≠ q.display table.lookUp
      ∧ q.toAbsolute.display table.lookUp = "::" ++ q.display table.lookUp := by
  intro table p q
  have hp : p.Legible table.lookUp := by decide
  have hq : q.Legible table.lookUp := by decide
  obtain ⟨hread, hequal, hwritten⟩ := display_reads_back ["App", "Item"]
  obtain ⟨hstarts, hsegments⟩ := hread p hp
  obtain ⟨-, -, -, hanchored⟩ := hwritten table.lookUp q
  exact ⟨hp, hq, hstarts, hsegments, mt (hequal p q hp hq).mp (by decide), hanchored rfl⟩

/-- With separators inside of a text, two paths of different lengths are
displayed alike. -/
example :
    let table := SymbolTable.ofTexts ["App", "Item", "App::Item"]
    (QualifiedName.relative [⟨1⟩] ⟨2⟩).display table.lookUp
      = (QualifiedName.simple ⟨3⟩).display table.lookUp := by decide

end QualifiedName

end ScopedAnnotations
