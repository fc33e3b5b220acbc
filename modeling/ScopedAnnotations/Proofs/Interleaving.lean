import Mathlib.Data.List.OfFn
import ScopedAnnotations.Proofs.Aliasing

/-!
# Interning at the same time

Interning a text takes two looks at the table. The first one needs no more than
to read, and most of the time it finds the text. If it does not, the table has
to be held for writing, and before that is granted any number of other calls may
have been there. So the text is looked for once more, and only then entered.

This module takes the two looks apart. One after the other they are what interning
is (`SymbolTable.Race.step_step`). But any number of calls are under way, a
schedule says whose turn it is, and between the two looks of one call all the
others may take theirs. Nothing comes of it: the table and the names are those
of the same calls made one after another, in the order in which they returned
(`SymbolTable.Race.run_serial`). A call that finds the text returns at its look,
and a call that does not returns when it writes; at that moment interning would
have done the same in one go (`SymbolTable.Race.Serial.finish`), and between its
looks a call does nothing at all.
-/

namespace ScopedAnnotations

namespace SymbolTable

/-- **How far a call has come.** -/
inductive Progress where
  /-- It has not looked for its text yet. -/
  | waiting
  /-- It has looked in vain, and has let go of the table since. -/
  | missed
  /-- It has returned. -/
  | returned (result : Except InternError Name)
  deriving DecidableEq

/-- The stages of a call, in order. -/
def Progress.stage : Progress → Nat
  | waiting => 0
  | missed => 1
  | returned _ => 2

/-- The last stage is to have returned. -/
theorem Progress.exists_of_two_le_stage {progress : Progress} (h : 2 ≤ progress.stage) :
    ∃ result, progress = .returned result := by
  cases progress with
  | returned result => exact ⟨result, rfl⟩
  | waiting => exact absurd h (by decide)
  | missed => exact absurd h (by decide)

/-- **Calls under way**, `n` of them, on one table. -/
structure Race (n : Nat) where
  table : SymbolTable
  progress : Fin n → Progress
  /-- The calls that have returned, in the order in which they did. -/
  order : List (Fin n)

namespace Race

variable {n : Nat}

/-- Nothing has happened yet, and the table is a new one. -/
def start : Race n := ⟨.empty, fun _ => .waiting, []⟩

/-- A call returns, and leaves a table behind. -/
def finish (race : Race n) (call : Fin n) (result : Except InternError Name)
    (table : SymbolTable) : Race n where
  table := table
  progress := Function.update race.progress call (.returned result)
  order := race.order ++ [call]

/-- **One step of one call.** It looks for its text and returns if it finds it.
If not, its next step is to look again, now that no one else can write, and to
enter the text if it still is not there. -/
def step (texts : Fin n → String) (race : Race n) (call : Fin n) : Race n :=
  match race.progress call with
  | .waiting =>
    match race.table.find? (texts call) with
    | some name => race.finish call (.ok name) race.table
    | none => { race with progress := Function.update race.progress call .missed }
  | .missed =>
    match race.table.intern (texts call) with
    | .ok (name, table) => race.finish call (.ok name) table
    | .error error => race.finish call (.error error) race.table
  | .returned _ => race

/-- **A schedule says whose step comes next.** A call that has returned has no
steps left, and its turns pass. -/
def run (texts : Fin n → String) (schedule : List (Fin n)) : Race n :=
  schedule.foldl (step texts) start

section Steps

variable {texts : Fin n → String} {race : Race n} {call other : Fin n}

theorem run_concat (schedule : List (Fin n)) (call : Fin n) :
    run texts (schedule ++ [call]) = (run texts schedule).step texts call :=
  List.foldl_append

theorem step_of_returned {result : Except InternError Name}
    (hp : race.progress call = .returned result) : race.step texts call = race := by
  unfold step
  rw [hp]

/-- **What one step can do**: nothing at all, or let a call go on to its second
look, or let it return what interning its text returns, with the table that
interning leaves. -/
theorem step_cases (texts : Fin n → String) (race : Race n) (call : Fin n) :
    (∃ result, race.progress call = .returned result ∧ race.step texts call = race)
    ∨ (race.progress call = .waiting ∧ race.step texts call
        = { race with progress := Function.update race.progress call .missed })
    ∨ ((∀ result, race.progress call ≠ .returned result) ∧ race.step texts call
        = race.finish call ((race.table.intern (texts call)).map Prod.fst)
          (race.table.after (.intern (texts call)))) := by
  unfold step
  cases hp : race.progress call with
  | returned result => exact .inl ⟨result, rfl, rfl⟩
  | waiting =>
    dsimp only
    cases hfind : race.table.find? (texts call) with
    | none => exact .inr (.inl ⟨rfl, rfl⟩)
    | some name =>
      have hintern := intern_of_find? hfind
      refine .inr (.inr ⟨nofun, ?_⟩)
      rw [after_intern_of_ok hintern, hintern]
      rfl
  | missed =>
    dsimp only
    refine .inr (.inr ⟨nofun, ?_⟩)
    cases hintern : race.table.intern (texts call) with
    | ok interned =>
      rw [after_intern_of_ok hintern]
      rfl
    | error error =>
      rw [after_intern_of_error hintern]
      rfl

@[simp]
theorem progress_finish_self (race : Race n) (call : Fin n) (result : Except InternError Name)
    (table : SymbolTable) : (race.finish call result table).progress call = .returned result :=
  Function.update_self call _ race.progress

theorem progress_finish_of_ne (h : other ≠ call) (result : Except InternError Name)
    (table : SymbolTable) : (race.finish call result table).progress other = race.progress other :=
  Function.update_of_ne h _ race.progress

/-- **A call that is not interrupted interns**: from its first look on, two steps
in a row come to what interning does in one. -/
theorem step_step (hp : race.progress call = .waiting) :
    ((race.step texts call).step texts call).table = race.table.after (.intern (texts call))
      ∧ ((race.step texts call).step texts call).progress call
        = .returned ((race.table.intern (texts call)).map Prod.fst) := by
  rcases step_cases texts race call with ⟨result, hreturned, -⟩ | ⟨-, hstep⟩ | ⟨-, hstep⟩
  · rw [hp] at hreturned
    cases hreturned
  · -- It has looked in vain, and nobody else had a turn since.
    have hmissed : (race.step texts call).progress call = .missed := by
      rw [hstep]
      exact Function.update_self call _ race.progress
    have htable : (race.step texts call).table = race.table := by rw [hstep]
    rcases step_cases texts (race.step texts call) call with
      ⟨result, hreturned, -⟩ | ⟨hwaiting, -⟩ | ⟨-, hstep'⟩
    · rw [hmissed] at hreturned
      cases hreturned
    · rw [hmissed] at hwaiting
      cases hwaiting
    · rw [hstep', htable]
      exact ⟨rfl, progress_finish_self _ _ _ _⟩
  · -- It has found its text, and the second turn passes.
    have hreturned := progress_finish_self race call
      ((race.table.intern (texts call)).map Prod.fst) (race.table.after (.intern (texts call)))
    rw [hstep, step_of_returned hreturned]
    exact ⟨rfl, hreturned⟩

/-- A call that has returned stays as it is, whoever's turn it is. -/
theorem progress_step_of_returned {result : Except InternError Name}
    (hp : race.progress call = .returned result) (other : Fin n) :
    (race.step texts other).progress call = .returned result := by
  by_cases h : call = other
  · subst h
    rw [step_of_returned hp, hp]
  · rcases step_cases texts race other with ⟨-, -, hstep⟩ | ⟨-, hstep⟩ | ⟨-, hstep⟩
    · rw [hstep, hp]
    · rw [hstep]
      exact (Function.update_of_ne h _ race.progress).trans hp
    · rw [hstep, progress_finish_of_ne h, hp]

/-- The table grows, if it changes at all. -/
theorem growsInto_step (texts : Fin n → String) (race : Race n) (call : Fin n) :
    race.table.GrowsInto (race.step texts call).table := by
  rcases step_cases texts race call with ⟨-, -, hstep⟩ | ⟨-, hstep⟩ | ⟨-, hstep⟩
  · rw [hstep]
    exact .refl race.table
  · rw [hstep]
    exact .refl race.table
  · rw [hstep]
    exact growsInto_after race.table _

/-- The call whose turn it is comes a stage further, until it has returned, and
no call falls back. -/
theorem stage_step (texts : Fin n → String) (race : Race n) (call other : Fin n) :
    min 2 ((race.progress other).stage + if call = other then 1 else 0)
      ≤ ((race.step texts call).progress other).stage := by
  by_cases h : call = other
  · subst h
    rw [if_pos rfl]
    rcases step_cases texts race call with ⟨result, hp, hstep⟩ | ⟨hp, hstep⟩ | ⟨-, hstep⟩
    · rw [hstep, hp]
      exact Nat.min_le_left 2 _
    · have hmissed : (race.step texts call).progress call = .missed := by
        rw [hstep]
        exact Function.update_self call _ race.progress
      rw [hmissed, hp]
      exact Nat.min_le_right 2 _
    · rw [hstep, progress_finish_self]
      exact Nat.min_le_left 2 _
  · have hsame : (race.step texts call).progress other = race.progress other := by
      rcases step_cases texts race call with ⟨-, -, hstep⟩ | ⟨-, hstep⟩ | ⟨-, hstep⟩
      · rw [hstep]
      · rw [hstep]
        exact Function.update_of_ne (Ne.symm h) _ race.progress
      · rw [hstep, progress_finish_of_ne (Ne.symm h)]
    rw [if_neg h, hsame]
    exact Nat.min_le_right 2 _

end Steps

/-! ## Whole runs -/

section Runs

variable {texts : Fin n → String}

/-- What a call has returned is what it has returned for good. -/
theorem progress_run_append_of_returned {call : Fin n} {result : Except InternError Name}
    {earlier : List (Fin n)} (h : (run texts earlier).progress call = .returned result)
    (later : List (Fin n)) : (run texts (earlier ++ later)).progress call = .returned result := by
  induction later using List.reverseRecOn with
  | nil => rwa [List.append_nil]
  | append_singleton later other ih =>
    rw [← List.append_assoc, run_concat]
    exact progress_step_of_returned ih other

theorem growsInto_run_append (texts : Fin n → String) (earlier later : List (Fin n)) :
    (run texts earlier).table.GrowsInto (run texts (earlier ++ later)).table := by
  induction later using List.reverseRecOn with
  | nil =>
    rw [List.append_nil]
    exact .refl _
  | append_singleton later call ih =>
    rw [← List.append_assoc, run_concat]
    exact ih.trans (growsInto_step texts _ call)

/-- Every turn takes a call a stage further, so that it needs two and no more. -/
theorem stage_run (texts : Fin n → String) (schedule : List (Fin n)) (call : Fin n) :
    min 2 (schedule.count call) ≤ ((run texts schedule).progress call).stage := by
  induction schedule using List.reverseRecOn with
  | nil => exact Nat.zero_le _
  | append_singleton schedule other ih =>
    have hstep := stage_step texts (run texts schedule) other call
    have hcount : (schedule ++ [other]).count call
        = schedule.count call + if other = call then 1 else 0 := by
      rw [List.count_append, List.count_singleton']
    rw [run_concat, hcount]
    omega

end Runs

/-! ## Taking turns -/

/-- **A race is serial**: the calls that have returned have come to what they come
to one after another, in the order in which they returned, and the names they
returned are these. -/
structure Serial (texts : Fin n → String) (race : Race n) (names : List Name) : Prop where
  /-- No call returns twice. -/
  nodup : race.order.Nodup
  mem_order_iff : ∀ call, call ∈ race.order ↔ ∃ result, race.progress call = .returned result
  run_names : (InternM.names (race.order.map texts)).run .empty = .ok (names, race.table)
  returned : race.order.map race.progress = names.map fun name => .returned (.ok name)

namespace Serial

variable {texts : Fin n → String} {race : Race n} {names : List Name} {call : Fin n}

theorem start (texts : Fin n → String) : (start : Race n).Serial texts [] where
  nodup := List.nodup_nil
  mem_order_iff := fun _ => iff_of_false nofun nofun
  run_names := rfl
  returned := rfl

theorem notMem_order (h : race.Serial texts names)
    (hp : ∀ result, race.progress call ≠ .returned result) : call ∉ race.order := by
  rw [h.mem_order_iff]
  rintro ⟨result, hreturned⟩
  exact hp result hreturned

/-- What happens to a call that has not returned is nothing to those that
have. -/
theorem map_update (h : race.Serial texts names)
    (hp : ∀ result, race.progress call ≠ .returned result) (progress : Progress) :
    race.order.map (Function.update race.progress call progress)
      = names.map fun name => .returned (.ok name) := by
  rw [← h.returned]
  refine List.map_congr_left (fun other hother => ?_)
  exact Function.update_of_ne (ne_of_mem_of_not_mem hother (h.notMem_order hp)) _ _

/-- **Between its looks a call does nothing.** -/
theorem miss (h : race.Serial texts names) (hp : race.progress call = .waiting) :
    Serial texts { race with progress := Function.update race.progress call .missed } names := by
  have hnot : ∀ result, race.progress call ≠ .returned result := by
    intro result hr
    rw [hp] at hr
    cases hr
  refine ⟨h.nodup, fun other => ?_, h.run_names, h.map_update hnot .missed⟩
  show other ∈ race.order ↔ ∃ result, Function.update race.progress call .missed other = _
  by_cases hother : other = call
  · subst hother
    rw [Function.update_self]
    exact iff_of_false (h.notMem_order hnot) nofun
  · rw [Function.update_of_ne hother]
    exact h.mem_order_iff other

/-- **A call returns as though it had interned its text in one go, just now.** -/
theorem finish (h : race.Serial texts names) {name : Name} {table : SymbolTable}
    (hp : ∀ result, race.progress call ≠ .returned result)
    (hintern : race.table.intern (texts call) = .ok (name, table)) :
    (race.finish call (.ok name) table).Serial texts (names ++ [name]) where
  nodup := by
    show (race.order ++ [call]).Nodup
    rw [← List.concat_eq_append]
    exact h.nodup.concat (h.notMem_order hp)
  mem_order_iff := by
    intro other
    show other ∈ race.order ++ [call] ↔ _
    rw [List.mem_append, List.mem_singleton]
    by_cases hother : other = call
    · subst hother
      exact iff_of_true (.inr rfl) ⟨_, progress_finish_self race other _ table⟩
    · rw [progress_finish_of_ne hother, or_iff_left hother]
      exact h.mem_order_iff other
  run_names := by
    have hlast : (InternM.names [texts call]).run race.table = .ok ([name], table) :=
      InternM.run_names_cons hintern rfl
    show (InternM.names ((race.order ++ [call]).map texts)).run .empty = _
    rw [List.map_append]
    exact InternM.run_names_append h.run_names hlast
  returned := by
    show (race.order ++ [call]).map (Function.update race.progress call (.returned (.ok name))) = _
    rw [List.map_append, h.map_update hp, List.map_append, List.map_singleton,
      Function.update_self]
    rfl

/-- The texts of calls are texts that there are numbers for. -/
theorem distinctCount_le (texts : Fin n → String) (order : List (Fin n)) :
    distinctCount (order.map texts) ≤ distinctCount (List.ofFn texts) := by
  refine distinctCount_mono (fun text hmem => ?_)
  obtain ⟨call, -, rfl⟩ := List.mem_map.mp hmem
  exact List.mem_ofFn.mpr ⟨call, rfl⟩

/-- The texts of the calls that have returned and the names they returned
correspond. -/
theorem numbered (h : race.Serial texts names)
    (room : distinctCount (List.ofFn texts) < UInt32.size) :
    race.table.Lists (race.order.map texts) ∧ Numbered (race.order.map texts) names race.table := by
  obtain ⟨names', table, hrun, hlists, hnames⟩ :=
    lists_empty.run_names (race.order.map texts) (lt_of_le_of_lt (distinctCount_le texts _) room)
  rw [h.run_names, Except.ok.injEq, Prod.mk.injEq] at hrun
  obtain ⟨rfl, rfl⟩ := hrun
  exact ⟨hlists, hlists.numbered hnames⟩

/-- **One step of a serial race** leaves it serial. -/
theorem step (h : race.Serial texts names)
    (room : distinctCount (List.ofFn texts) < UInt32.size) (call : Fin n) :
    ∃ names', (race.step texts call).Serial texts names' := by
  rcases step_cases texts race call with ⟨-, -, hstep⟩ | ⟨hp, hstep⟩ | ⟨hp, hstep⟩
  · rw [hstep]
    exact ⟨names, h⟩
  · rw [hstep]
    exact ⟨names, h.miss hp⟩
  · have hroom : distinctCount (race.order.map texts ++ [texts call]) < UInt32.size := by
      rw [← List.map_singleton, ← List.map_append]
      exact lt_of_le_of_lt (distinctCount_le texts _) room
    obtain ⟨name, table, hintern, -⟩ := (h.numbered room).1.intern (texts call) hroom
    rw [hstep, hintern, after_intern_of_ok hintern]
    exact ⟨names ++ [name], h.finish hp hintern⟩

/-- **A race is serial at any time.** -/
theorem run (texts : Fin n → String) (room : distinctCount (List.ofFn texts) < UInt32.size)
    (schedule : List (Fin n)) : ∃ names, (run texts schedule).Serial texts names := by
  induction schedule using List.reverseRecOn with
  | nil => exact ⟨[], .start texts⟩
  | append_singleton schedule call ih =>
    obtain ⟨names, hnames⟩ := ih
    rw [run_concat]
    exact hnames.step room call

/-- A call has returned a name if it has returned at all. -/
theorem exists_name (h : race.Serial texts names) {result : Except InternError Name}
    (hr : race.progress call = .returned result) : ∃ name, result = .ok name := by
  have hmem := List.mem_map_of_mem ((h.mem_order_iff call).mpr ⟨result, hr⟩) (f := race.progress)
  rw [h.returned, hr] at hmem
  obtain ⟨name, -, hname⟩ := List.mem_map.mp hmem
  exact ⟨name, (Progress.returned.inj hname).symm⟩

/-- A text and the name that its call has returned stand in the same place. -/
theorem mem_zip (h : race.Serial texts names) {name : Name}
    (hr : race.progress call = .returned (.ok name)) :
    (texts call, name) ∈ (race.order.map texts).zip names := by
  obtain ⟨k, hk⟩ := List.mem_iff_getElem?.mp ((h.mem_order_iff call).mpr ⟨_, hr⟩)
  have hreturned := congrArg (·[k]?) h.returned
  rw [List.getElem?_map, List.getElem?_map, hk, Option.map_some, hr, eq_comm,
    Option.map_eq_some_iff] at hreturned
  obtain ⟨other, hother, heq⟩ := hreturned
  obtain rfl := Except.ok.inj (Progress.returned.inj heq)
  refine List.mem_of_getElem? (i := k) (List.getElem?_zip_eq_some.mpr ⟨?_, hother⟩)
  rw [List.getElem?_map, hk]
  rfl

end Serial

/-- **Interning at the same time is interning in turns.** Let any number of calls
intern any texts in a new table, and let their steps come in any order. At every
moment the names returned so far and the table are those of the calls that have
returned, made one after another in the order in which they did, so that
texts and numbers correspond. In particular the two stores are inverse to each
other, no text is listed twice, and two calls return one name exactly if they
were given one text.

From one moment to a later one, no number is taken back: what a call has returned
it has returned for good, a text that has a name keeps it, and a name that was
given out keeps its text. And a call is never refused, and returns by its second
turn. -/
theorem run_serial (texts : Fin n → String)
    (room : distinctCount (List.ofFn texts) < UInt32.size) (earlier later : List (Fin n)) :
    let before := run texts earlier
    let race := run texts (earlier ++ later)
    (∃ names, race.Serial texts names ∧ Numbered (race.order.map texts) names race.table)
    ∧ (∀ call other name name', race.progress call = .returned (.ok name) →
      race.progress other = .returned (.ok name') → (name = name' ↔ texts call = texts other))
    ∧ (∀ call result, before.progress call = .returned result →
      race.progress call = .returned result)
    ∧ (∀ text name, before.table.find? text = some name → race.table.find? text = some name)
    ∧ (∀ name, before.table.Knows name → race.table.lookUp name = before.table.lookUp name)
    ∧ ∀ call, 2 ≤ (earlier ++ later).count call →
      ∃ name, race.progress call = .returned (.ok name) := by
  intro before race
  obtain ⟨ns, hbefore⟩ := Serial.run texts room earlier
  obtain ⟨names, hrace⟩ := Serial.run texts room (earlier ++ later)
  have hnumbered := (hrace.numbered room).2
  have hgrows := growsInto_run_append texts earlier later
  refine ⟨⟨names, hrace, hnumbered⟩, fun call other name name' h h' => ?_,
    fun call result h => progress_run_append_of_returned h later,
    fun text name h => hgrows.find?_eq (hbefore.numbered room).2.inverse hnumbered.inverse h,
    fun name known => hgrows.lookUp_eq known, fun call hturns => ?_⟩
  · exact hnumbered.name_eq_iff _ _ _ _ (hrace.mem_zip h) (hrace.mem_zip h')
  · have hstage : 2 ≤ (race.progress call).stage :=
      (Nat.min_eq_left hturns).symm.le.trans (stage_run texts (earlier ++ later) call)
    obtain ⟨result, hreturned⟩ := Progress.exists_of_two_le_stage hstage
    obtain ⟨name, rfl⟩ := hrace.exists_name hreturned
    exact ⟨name, hreturned⟩

/-- Two calls with one text both look in vain before either has written. The one
that writes second finds the text there. -/
theorem run_serial_missed_twice :
    let texts : Fin 3 → String := fun call => if call = 2 then "y" else "x"
    let race := run texts ([0, 1, 1, 2] ++ [0, 2])
    distinctCount (List.ofFn texts) < UInt32.size
      ∧ (run texts [0, 1]).progress 0 = .missed ∧ (run texts [0, 1]).progress 1 = .missed
      ∧ (∃ names, race.Serial texts names ∧ Numbered (race.order.map texts) names race.table)
      ∧ race.order = [1, 0, 2]
      ∧ ∃ name name', race.progress 0 = .returned (.ok name)
        ∧ race.progress 1 = .returned (.ok name') ∧ name = name' := by
  intro texts race
  have room : distinctCount (List.ofFn texts) < UInt32.size := by decide
  obtain ⟨hserial, hnames, -, -, -, hreturned⟩ := run_serial texts room [0, 1, 1, 2] [0, 2]
  obtain ⟨name, hname⟩ := hreturned 0 (by decide)
  obtain ⟨name', hname'⟩ := hreturned 1 (by decide)
  exact ⟨room, by decide, by decide, hserial, by decide, name, name', hname, hname',
    (hnames 0 1 name name' hname hname').mpr rfl⟩

end Race

end SymbolTable

end ScopedAnnotations
