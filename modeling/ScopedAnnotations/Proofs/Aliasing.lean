import ScopedAnnotations.SymbolTable.Sharing
import ScopedAnnotations.Proofs.Numbering

/-!
# Handles and what they share

A pool has many tables and many handles on them, and which handle reaches
which table is nowhere to be seen in the requests. All that the requests say
is where each handle comes from: it was given out when a table was created, or
it was cloned from an earlier handle. Following the clones back, every handle
*descends* from one creation.

This module says that nothing else matters. Whatever was asked of the pool, a
handle answers as a table of one's own would, in which exactly those texts
were interned, in order, that were interned through handles of the same
descent (`Pool.performAll_answers_alone`). The requests alone give both the
descent and the texts, and the `Ledger` is the account of them. The pool is
the ledger with every list of texts replaced by the table it comes to
(`Ledger.pool`), and one request keeps it so (`Ledger.perform_pool`).
-/

namespace ScopedAnnotations

namespace SymbolTable

/-! ## A table of one's own -/

/-- What one table can be asked. -/
inductive Question where
  /-- The name of a text, listing it first if need be. -/
  | intern (text : String)
  /-- The text of a name. -/
  | lookUp (name : Name)
  /-- A path, as it is written. -/
  | display (path : QualifiedName)
  /-- How many texts are listed. -/
  | size
  /-- Whether no text but the empty one is listed. -/
  | isEmpty
  deriving DecidableEq, Repr

/-- A question put through a handle. -/
def Question.through (handle : Handle) : Question → Request
  | intern text => .intern handle text
  | lookUp name => .lookUp handle name
  | display path => .display handle path
  | size => .size handle
  | isEmpty => .isEmpty handle

/-- **What a table answers by itself.** -/
def answer (table : SymbolTable) : Question → Reply
  | .intern text =>
    match table.intern text with
    | .ok (name, _) => .name name
    | .error error => .refused error
  | .lookUp name => .text (table.lookUp name)
  | .display path => .text (path.display table.lookUp)
  | .size => .count table.size
  | .isEmpty => .truth table.isEmpty

/-- The table after a question was put to it. Only interning leaves a trace,
and none if the text is refused. -/
def after (table : SymbolTable) : Question → SymbolTable
  | .intern text =>
    match table.intern text with
    | .ok (_, table') => table'
    | .error _ => table
  | _ => table

/-- **A table of one's own**, in which these texts were interned in order, and
nothing else. -/
def ofTexts (texts : List String) : SymbolTable :=
  texts.foldl (fun table text => table.after (.intern text)) empty

theorem ofTexts_concat (texts : List String) (text : String) :
    ofTexts (texts ++ [text]) = (ofTexts texts).after (.intern text) :=
  List.foldl_append

section Intern

variable {table table' : SymbolTable} {text : String}

theorem answer_intern_of_ok {name : Name} (h : table.intern text = .ok (name, table')) :
    table.answer (.intern text) = .name name := by
  rw [answer, h]

theorem after_intern_of_ok {name : Name} (h : table.intern text = .ok (name, table')) :
    table.after (.intern text) = table' := by
  rw [after, h]

theorem answer_intern_of_error {error : InternError} (h : table.intern text = .error error) :
    table.answer (.intern text) = .refused error := by
  rw [answer, h]

theorem after_intern_of_error {error : InternError} (h : table.intern text = .error error) :
    table.after (.intern text) = table := by
  rw [after, h]

/-- A table gives a text a name exactly if interning goes well. -/
theorem intern_of_answer_eq_name {name : Name} (h : table.answer (.intern text) = .name name) :
    ∃ table', table.intern text = .ok (name, table') := by
  cases hintern : table.intern text with
  | ok interned =>
    rw [answer_intern_of_ok hintern] at h
    cases h
    exact ⟨_, rfl⟩
  | error error =>
    rw [answer_intern_of_error hintern] at h
    cases h

/-- A table that is asked something grows, if it changes at all. -/
theorem growsInto_after (table : SymbolTable) (question : Question) :
    table.GrowsInto (table.after question) := by
  cases question with
  | intern text =>
    cases h : table.intern text with
    | error error =>
      rw [after_intern_of_error h]
      exact .refl table
    | ok interned =>
      rw [after_intern_of_ok h]
      exact growsInto_of_intern h
  | _ => exact .refl table

/-- A text is refused exactly if there is no name for it. -/
theorem intern_eq_error_iff {error : InternError} :
    table.intern text = .error error ↔ table.nameFor text = .error error := by
  unfold intern
  cases table.nameFor text with
  | ok name => exact iff_of_false nofun nofun
  | error e => rw [Except.map, Except.error.injEq, Except.error.injEq]

end Intern

/-! ## Questions put through a handle -/

namespace Pool

variable {pool : Pool} {handle : Handle}

/-- A handle points somewhere, and reaches the table that stands there. -/
theorem find_eq_ok_iff {holding : Holding} {table : SymbolTable} :
    pool.find handle = .ok (holding, table)
      ↔ pool.holdings[handle.index]? = some holding
        ∧ pool.tables[holding.table]? = some table := by
  unfold find
  cases pool.holdings[handle.index]? with
  | none => exact iff_of_false nofun (fun h => nomatch h.1)
  | some held =>
    dsimp only
    rw [Option.some_inj]
    cases ht : pool.tables[held.table]? with
    | none =>
      refine iff_of_false nofun ?_
      rintro ⟨rfl, h⟩
      rw [ht] at h
      cases h
    | some reached =>
      rw [Except.ok.injEq, Prod.mk.injEq]
      refine and_congr_right ?_
      rintro rfl
      rw [ht, Option.some_inj]

/-- The table that a handle reaches stands where the handle points. -/
theorem getElem?_of_find {holding : Holding} {table : SymbolTable}
    (found : pool.find handle = .ok (holding, table)) :
    pool.tables[holding.table]? = some table :=
  (find_eq_ok_iff.mp found).2

/-- Writing back what stands in a place changes nothing. -/
theorem setIfInBounds_of_getElem? {tables : Array SymbolTable} {i : Nat} {table : SymbolTable}
    (h : tables[i]? = some table) : tables.setIfInBounds i table = tables := by
  obtain ⟨hi, rfl⟩ := Array.getElem?_eq_some_iff.mp h
  rw [Array.setIfInBounds_def, dif_pos hi]
  exact Array.set_getElem_self hi

/-- **A question through a handle is a question to the table it reaches**, and
is heard by no other table. -/
theorem perform_through {holding : Holding} {table : SymbolTable}
    (found : pool.find handle = .ok (holding, table)) (question : Question) :
    pool.perform (question.through handle) = .ok (table.answer question,
      { pool with tables := pool.tables.setIfInBounds holding.table (table.after question) }) := by
  have hsame : pool.tables.setIfInBounds holding.table table = pool.tables :=
    setIfInBounds_of_getElem? (getElem?_of_find found)
  cases question with
  | intern text =>
    cases h : table.intern text with
    | ok interned =>
      rw [answer_intern_of_ok h, after_intern_of_ok h]
      exact perform_intern found h
    | error error =>
      rw [answer_intern_of_error h, after_intern_of_error h, hsame]
      refine bind_eq_ok_iff.mpr ⟨(holding, table), found, ?_⟩
      dsimp only
      rw [intern_eq_error_iff.mp h]
      rfl
  | _ =>
    show _ = Except.ok (_, (⟨pool.tables.setIfInBounds holding.table table, _⟩ : Pool))
    rw [hsame]
    exact bind_eq_ok_iff.mpr ⟨(holding, table), found, rfl⟩

/-- A handle that the pool does not know is all it takes for an error. -/
theorem perform_through_of_error {error : HandleError} (h : pool.find handle = .error error)
    (question : Question) : pool.perform (question.through handle) = .error error := by
  cases question <;> exact congrArg (· >>= _) h

end Pool

/-! ## What the requests tell -/

/-- **The account of a run**, made from its requests alone: where each handle
comes from, and what was interned through handles of each descent. A descent
is known by the number of its creation. -/
structure Ledger where
  /-- How many tables were created. -/
  creations : Nat
  /-- The handles given out, each with the creation it descends from. -/
  handles : List Holding
  /-- The texts that were to be interned, each with the creation that the handle
  descended from. -/
  interned : List (Nat × String)
  /-- Handles descend from tables that were created. -/
  handles_lt : ∀ holding ∈ handles, holding.table < creations
  /-- Texts are interned in tables that were created. -/
  interned_lt : ∀ entry ∈ interned, entry.1 < creations

namespace Ledger

/-- Before any request. -/
def blank : Ledger := ⟨0, [], [], nofun, nofun⟩

/-- What is known of a handle. -/
def find? (ledger : Ledger) (handle : Handle) : Option Holding := ledger.handles[handle.index]?

/-- The creation that a handle descends from. -/
def origin? (ledger : Ledger) (handle : Handle) : Option Nat :=
  (ledger.find? handle).map Holding.table

/-- **The texts interned through handles of one descent**, in order. -/
def texts (ledger : Ledger) (creation : Nat) : List String :=
  (ledger.interned.filter (·.1 = creation)).map Prod.snd

theorem lt_of_find? {ledger : Ledger} {handle : Handle} {holding : Holding}
    (h : ledger.find? handle = some holding) : holding.table < ledger.creations :=
  ledger.handles_lt holding (List.mem_of_getElem? h)

/-- **The account of one more request.** Creating a table founds a descent, and
cloning a handle passes on the descent it has. -/
def after (ledger : Ledger) : Request → Ledger
  | .create ownership =>
    { creations := ledger.creations + 1
      handles := ledger.handles ++ [⟨ledger.creations, ownership⟩]
      interned := ledger.interned
      handles_lt := by
        intro holding h
        rcases List.mem_append.mp h with h | h
        · exact Nat.lt_succ_of_lt (ledger.handles_lt holding h)
        · rw [List.mem_singleton.mp h]
          exact Nat.lt_succ_self ledger.creations
      interned_lt := fun entry h => Nat.lt_succ_of_lt (ledger.interned_lt entry h) }
  | .clone handle =>
    { ledger with
      handles := ledger.handles ++ (ledger.find? handle).toList
      handles_lt := by
        intro holding h
        rcases List.mem_append.mp h with h | h
        · exact ledger.handles_lt holding h
        · exact lt_of_find? (Option.mem_toList.mp h) }
  | .intern handle text =>
    { ledger with
      interned := ledger.interned ++ ((ledger.origin? handle).map (·, text)).toList
      interned_lt := by
        intro entry h
        rcases List.mem_append.mp h with h | h
        · exact ledger.interned_lt entry h
        · obtain ⟨creation, hc, rfl⟩ := Option.map_eq_some_iff.mp (Option.mem_toList.mp h)
          obtain ⟨holding, hh, rfl⟩ := Option.map_eq_some_iff.mp hc
          exact lt_of_find? hh }
  | _ => ledger

/-- The account of a run. -/
def afterAll (ledger : Ledger) (requests : List Request) : Ledger := requests.foldl after ledger

/-- What is known of a handle, if the request that mentions it makes sense. -/
def find (ledger : Ledger) (handle : Handle) : Except HandleError Holding :=
  match ledger.find? handle with
  | some holding => .ok holding
  | none => .error (.unknown handle)

/-- **What a handle answers**: what a table of one's own does, in which exactly
the texts were interned that went through handles of its descent. -/
def ask (ledger : Ledger) (handle : Handle) (question : Question) : Except HandleError Reply :=
  (ledger.find handle).map fun holding => (ofTexts (ledger.texts holding.table)).answer question

/-- **What a request is answered with**, going by the account alone. Handles
are numbered in the order in which they are given out. -/
def reply (ledger : Ledger) : Request → Except HandleError Reply
  | .create _ => .ok (.handle ⟨ledger.handles.length⟩)
  | .clone handle => do
    match (← ledger.find handle).ownership with
    | .sole => .error (.notShared handle)
    | .shared => return .handle ⟨ledger.handles.length⟩
  | .intern handle text => ledger.ask handle (.intern text)
  | .lookUp handle name => ledger.ask handle (.lookUp name)
  | .display handle path => ledger.ask handle (.display path)
  | .size handle => ledger.ask handle .size
  | .isEmpty handle => ledger.ask handle .isEmpty

/-- What requests are answered with, one after another. -/
def replies (ledger : Ledger) : List Request → Except HandleError (List Reply)
  | [] => .ok []
  | request :: requests => do
    let reply ← ledger.reply request
    let replies ← (ledger.after request).replies requests
    return reply :: replies

/-- **The pool that comes of a run**: for every creation the table that its texts
come to, and for every handle the number of its creation. -/
def pool (ledger : Ledger) : Pool where
  tables := ((List.range ledger.creations).map fun c => ofTexts (ledger.texts c)).toArray
  holdings := ledger.handles.toArray

/-! ## One request -/

section Request

variable (ledger : Ledger)

theorem texts_of_creations_le {creation : Nat} (h : ledger.creations ≤ creation) :
    ledger.texts creation = [] := by
  unfold texts
  rw [List.map_eq_nil_iff, List.filter_eq_nil_iff]
  intro entry hentry hcreation
  exact absurd (ledger.interned_lt entry hentry)
    (by rw [of_decide_eq_true hcreation]; exact Nat.not_lt.mpr h)

/-- A text is told to the tables of one descent. -/
theorem texts_after_intern (handle : Handle) (text : String) (creation : Nat) :
    (ledger.after (.intern handle text)).texts creation
      = ledger.texts creation ++ if ledger.origin? handle = some creation then [text] else [] := by
  show ((ledger.interned ++ _).filter _).map _ = _
  rw [List.filter_append, List.map_append]
  refine congrArg (ledger.texts creation ++ ·) ?_
  cases ledger.origin? handle with
  | none => rfl
  | some origin =>
    show ([(origin, text)].filter _).map _ = _
    rw [List.filter_singleton]
    by_cases h : origin = creation
    · rw [if_pos (congrArg some h), decide_eq_true h]
      rfl
    · rw [if_neg (fun hs => h (Option.some_inj.mp hs)), decide_eq_false h]
      rfl

theorem getElem?_tables_pool (creation : Nat) :
    ledger.pool.tables[creation]?
      = if creation < ledger.creations then some (ofTexts (ledger.texts creation)) else none := by
  unfold pool
  rw [List.getElem?_toArray, List.getElem?_map]
  by_cases h : creation < ledger.creations
  · rw [if_pos h, List.getElem?_range h]
    rfl
  · rw [if_neg h, List.getElem?_eq_none (by rw [List.length_range]; exact Nat.not_lt.mp h)]
    rfl

/-- A handle reaches the table of its descent. -/
theorem find_pool (handle : Handle) :
    ledger.pool.find handle
      = (ledger.find handle).map fun holding =>
          (holding, ofTexts (ledger.texts holding.table)) := by
  have hholding : ledger.pool.holdings[handle.index]? = ledger.find? handle :=
    List.getElem?_toArray
  unfold Pool.find Ledger.find
  rw [hholding]
  cases h : ledger.find? handle with
  | none => rfl
  | some holding =>
    dsimp only
    rw [getElem?_tables_pool, if_pos (lt_of_find? h)]
    rfl

theorem find_eq_ok_iff {handle : Handle} {holding : Holding} :
    ledger.find handle = .ok holding ↔ ledger.find? handle = some holding := by
  unfold find
  cases ledger.find? handle with
  | none => exact iff_of_false nofun nofun
  | some found => rw [Except.ok.injEq, Option.some_inj]

/-- **Only one table hears a question**: the table of the descent of the handle
it is put through. -/
theorem pool_after_through {handle : Handle} {holding : Holding}
    (known : ledger.find? handle = some holding) (question : Question) :
    (ledger.after (question.through handle)).pool
      = { ledger.pool with
          tables := ledger.pool.tables.setIfInBounds holding.table
            ((ofTexts (ledger.texts holding.table)).after question) } := by
  have horigin : ledger.origin? handle = some holding.table := congrArg (Option.map _) known
  have hlt := lt_of_find? known
  have hthere : ledger.pool.tables[holding.table]?
      = some (ofTexts (ledger.texts holding.table)) := by
    rw [getElem?_tables_pool, if_pos hlt]
  cases question with
  | intern text =>
    refine congrArg (Pool.mk · _) (Array.ext_getElem? (fun creation => ?_))
    refine ((ledger.after (.intern handle text)).getElem?_tables_pool creation).trans ?_
    rw [Array.getElem?_setIfInBounds, texts_after_intern, horigin, getElem?_tables_pool]
    show (if creation < ledger.creations then _ else _) = _
    by_cases h : holding.table = creation
    · subst h
      obtain ⟨hsize, -⟩ := Array.getElem?_eq_some_iff.mp hthere
      rw [if_pos hlt, if_pos rfl, if_pos rfl, if_pos hsize, ofTexts_concat]
    · rw [if_neg h, if_neg (fun hs => h (Option.some_inj.mp hs)), List.append_nil]
  | _ => exact congrArg (Pool.mk · _) (Pool.setIfInBounds_of_getElem? hthere).symm

/-- **A question is put to the account as it is to the pool.** -/
theorem perform_through_pool (handle : Handle) (question : Question) :
    ledger.pool.perform (question.through handle)
      = (ledger.ask handle question).map fun reply =>
          (reply, (ledger.after (question.through handle)).pool) := by
  have hfound := ledger.find_pool handle
  unfold ask
  cases h : ledger.find handle with
  | error error =>
    rw [h] at hfound
    exact Pool.perform_through_of_error hfound question
  | ok holding =>
    rw [h] at hfound
    rw [Pool.perform_through hfound question,
      ← ledger.pool_after_through (ledger.find_eq_ok_iff.mp h) question]
    rfl

/-- **One request.** The pool of an account answers a request as the account says,
and then is the pool of the account of one more request. -/
theorem perform_pool (request : Request) :
    ledger.pool.perform request
      = (ledger.reply request).map fun reply => (reply, (ledger.after request).pool) := by
  cases request with
  | create ownership =>
    -- Nothing was interned yet in a table that does not exist.
    have hnew : ofTexts (ledger.texts ledger.creations) = empty := by
      rw [texts_of_creations_le ledger le_rfl]
      rfl
    have htables : ledger.pool.tables.push .empty
        = (ledger.after (.create ownership)).pool.tables := by
      show (List.toArray _).push _ = ((List.range (ledger.creations + 1)).map _).toArray
      rw [List.push_toArray, List.range_succ, List.map_append, List.map_singleton, ← hnew]
      rfl
    have hsize : ledger.pool.tables.size = ledger.creations := by
      unfold pool
      rw [List.size_toArray, List.length_map, List.length_range]
    have hholdings : ledger.pool.holdings.push ⟨ledger.pool.tables.size, ownership⟩
        = (ledger.after (.create ownership)).pool.holdings := by
      rw [hsize]
      exact List.push_toArray _ _
    exact congrArg Except.ok (Prod.ext rfl (congrArg₂ Pool.mk htables hholdings))
  | clone handle =>
    have hfound := ledger.find_pool handle
    show (ledger.pool.find handle >>= _) = Except.map _ (ledger.find handle >>= _)
    rw [hfound]
    cases h : ledger.find handle with
    | error error => rfl
    | ok holding =>
      have hholdings : ledger.pool.holdings.push holding
          = (ledger.after (.clone handle)).pool.holdings := by
        show _ = (ledger.handles ++ (ledger.find? handle).toList).toArray
        rw [ledger.find_eq_ok_iff.mp h]
        exact List.push_toArray _ _
      obtain ⟨creation, _ | _⟩ := holding
      · rfl
      · exact congrArg Except.ok (Prod.ext rfl (congrArg (Pool.mk _) hholdings))
  | intern handle text => exact ledger.perform_through_pool handle (.intern text)
  | lookUp handle name => exact ledger.perform_through_pool handle (.lookUp name)
  | display handle path => exact ledger.perform_through_pool handle (.display path)
  | size handle => exact ledger.perform_through_pool handle .size
  | isEmpty handle => exact ledger.perform_through_pool handle .isEmpty

end Request

/-! ## A run -/

/-- **A run.** What holds of one request holds of any number of them. -/
theorem performAll_pool (ledger : Ledger) (requests : List Request) :
    ledger.pool.performAll requests
      = (ledger.replies requests).map fun replies =>
          (replies, (ledger.afterAll requests).pool) := by
  induction requests generalizing ledger with
  | nil => rfl
  | cons request requests ih =>
    show (ledger.pool.perform request >>= _) = Except.map _ (ledger.reply request >>= _)
    rw [perform_pool]
    cases ledger.reply request with
    | error error => rfl
    | ok reply =>
      show ((ledger.after request).pool.performAll requests >>= _)
        = Except.map _ ((ledger.after request).replies requests >>= _)
      rw [ih]
      cases (ledger.after request).replies requests <;> rfl

/-- **Handles share what their descent shares**, and nothing else. What is said
here holds of a pool and the account of the requests that made it. -/
structure Governs (ledger : Ledger) (pool : Pool) : Prop where
  /-- Handles of one descent answer alike. -/
  alike : ∀ creation handle handle', ledger.origin? handle = some creation →
    ledger.origin? handle' = some creation → ∀ question : Question,
    (pool.perform (question.through handle)).map Prod.fst
      = (pool.perform (question.through handle')).map Prod.fst
  /-- What is interned through one of them is there for the others at once. -/
  heard : ∀ creation handle handle', ledger.origin? handle = some creation →
    ledger.origin? handle' = some creation → ∀ text name pool',
    pool.perform (.intern handle text) = .ok (.name name, pool') →
    (pool'.perform (.lookUp handle' name)).map Prod.fst = .ok (.text text)
      ∧ (pool'.perform (.intern handle' text)).map Prod.fst = .ok (.name name)
  /-- A clone answers as the handle that it was cloned from, from the start. -/
  cloned : ∀ handle handle' pool', pool.perform (.clone handle) = .ok (.handle handle', pool') →
    ∀ question : Question, (pool'.perform (question.through handle')).map Prod.fst
      = (pool.perform (question.through handle)).map Prod.fst
  /-- Handles of different descents do not notice each other. -/
  apart : ∀ creation handle creation' handle', ledger.origin? handle = some creation →
    ledger.origin? handle' = some creation' → creation ≠ creation' →
    ∀ (question : Question) reply pool',
    pool.perform (question.through handle) = .ok (reply, pool') →
    ∀ question' : Question, (pool'.perform (question'.through handle')).map Prod.fst
      = (pool.perform (question'.through handle')).map Prod.fst

section Descent

variable {ledger : Ledger} {handle handle' : Handle} {creation : Nat}

/-- A handle answers by the texts of its descent. -/
theorem ask_of_origin? (h : ledger.origin? handle = some creation) (question : Question) :
    ledger.ask handle question = .ok ((ofTexts (ledger.texts creation)).answer question) := by
  obtain ⟨holding, hknown, rfl⟩ := Option.map_eq_some_iff.mp h
  rw [ask, ledger.find_eq_ok_iff.mpr hknown]
  rfl

theorem fst_perform_through_pool (handle : Handle) (question : Question) :
    (ledger.pool.perform (question.through handle)).map Prod.fst = ledger.ask handle question := by
  rw [perform_through_pool]
  cases ledger.ask handle question <;> rfl

theorem fst_perform_through_pool_of_origin? (h : ledger.origin? handle = some creation)
    (question : Question) :
    (ledger.pool.perform (question.through handle)).map Prod.fst
      = .ok ((ofTexts (ledger.texts creation)).answer question) :=
  (fst_perform_through_pool handle question).trans (ask_of_origin? h question)

/-- A question changes the pool as it changes the account. -/
theorem eq_pool_after_through (question : Question) {reply : Reply} {pool : Pool}
    (h : ledger.pool.perform (question.through handle) = .ok (reply, pool)) :
    ledger.ask handle question = .ok reply
      ∧ pool = (ledger.after (question.through handle)).pool := by
  rw [perform_through_pool] at h
  cases hask : ledger.ask handle question with
  | error error => rw [hask] at h; cases h
  | ok answer => rw [hask] at h; cases h; exact ⟨rfl, rfl⟩

theorem origin?_after_through (question : Question) :
    (ledger.after (question.through handle)).origin? = ledger.origin? := by
  cases question <;> rfl

/-- A question tells nothing to the tables of other descents. -/
theorem texts_after_through (h : ledger.origin? handle = some creation) (question : Question)
    {creation' : Nat} (different : creation ≠ creation') :
    (ledger.after (question.through handle)).texts creation' = ledger.texts creation' := by
  cases question with
  | intern text =>
    refine (ledger.texts_after_intern handle text creation').trans ?_
    rw [h, if_neg (fun hs => different (Option.some_inj.mp hs)), List.append_nil]
  | _ => rfl

end Descent

end Ledger

/-- The stores of a table of one's own are inverse to each other. -/
theorem inverse_ofTexts (texts : List String) : (ofTexts texts).Inverse := by
  induction texts using List.reverseRecOn with
  | nil => exact lists_empty.inverse
  | append_singleton texts text ih =>
    rw [ofTexts_concat]
    cases h : (ofTexts texts).intern text with
    | ok interned =>
      rw [after_intern_of_ok h]
      exact Inverse.intern ih h
    | error error =>
      rw [after_intern_of_error h]
      exact ih

namespace Ledger

/-- The pool of an account is shared as the account says. -/
theorem governs_pool (ledger : Ledger) : ledger.Governs ledger.pool where
  alike := by
    intro creation handle handle' h h' question
    rw [fst_perform_through_pool_of_origin? h, fst_perform_through_pool_of_origin? h']
  heard := by
    intro creation handle handle' h h' text name pool' hperform
    obtain ⟨hask, rfl⟩ := eq_pool_after_through (.intern text) hperform
    rw [ask_of_origin? h, Except.ok.injEq] at hask
    obtain ⟨table', hintern⟩ := intern_of_answer_eq_name hask
    have hfind := find?_of_intern hintern
    have hinverse : table'.Inverse := (inverse_ofTexts _).intern hintern
    -- What all of them reach now is the table in which the text was interned.
    have htable : ofTexts ((ledger.after (.intern handle text)).texts creation) = table' := by
      rw [texts_after_intern, h, if_pos rfl, ofTexts_concat, after_intern_of_ok hintern]
    have horigin : (ledger.after (.intern handle text)).origin? handle' = some creation := h'
    have hanswer (question : Question) :
        ((ledger.after (.intern handle text)).pool.perform (question.through handle')).map Prod.fst
          = .ok (table'.answer question) := by
      rw [← htable]
      exact fst_perform_through_pool_of_origin? horigin question
    refine ⟨(hanswer (.lookUp name)).trans ?_, (hanswer (.intern text)).trans ?_⟩
    · exact congrArg (Except.ok ∘ Reply.text) (hinverse.lookUp_of_find? hfind)
    · rw [answer_intern_of_ok (intern_of_find? hfind)]
  cloned := by
    intro handle handle' pool' hperform question
    rw [perform_pool] at hperform
    cases hreply : ledger.reply (.clone handle) with
    | error error => rw [hreply] at hperform; cases hperform
    | ok reply =>
      rw [hreply] at hperform
      cases hperform
      obtain ⟨holding, hfind, hnew⟩ := bind_eq_ok_iff.mp hreply
      obtain ⟨creation, _ | _⟩ := holding
      · cases hnew
      · cases hnew
        have hknown := ledger.find_eq_ok_iff.mp hfind
        have horigin : ledger.origin? handle = some creation := congrArg (Option.map _) hknown
        have hclone : (ledger.after (.clone handle)).origin? ⟨ledger.handles.length⟩
            = some creation := by
          show ((ledger.handles ++ (ledger.find? handle).toList)[ledger.handles.length]?).map _ = _
          rw [hknown, Option.toList_some, List.getElem?_concat_length]
          rfl
        rw [fst_perform_through_pool_of_origin? hclone, fst_perform_through_pool_of_origin? horigin]
        rfl
  apart := by
    intro creation handle creation' handle' h h' different question reply pool' hperform question'
    obtain ⟨-, rfl⟩ := eq_pool_after_through question hperform
    have hafter : (ledger.after (question.through handle)).origin? handle' = some creation' := by
      rw [origin?_after_through]
      exact h'
    rw [fst_perform_through_pool_of_origin? hafter, fst_perform_through_pool_of_origin? h',
      texts_after_through h question different]

end Ledger

/-- **A handle is as good as a table of one's own.** In a run from the empty
pool every request is answered as the account of the requests before it says. A
question is answered by the texts that were interned through handles of the
descent it is put to, in order, and by nothing else; a request that makes no
sense is answered by saying so.

After any run, therefore, handles of one descent share what any of them
interned, whether that was before the others were cloned or after, and handles
of different descents share nothing. -/
theorem Pool.performAll_answers_alone (requests : List Request) :
    (empty.performAll requests).map Prod.fst = Ledger.blank.replies requests
      ∧ ∀ replies pool, empty.performAll requests = .ok (replies, pool) →
        (Ledger.blank.afterAll requests).Governs pool := by
  have hrun := Ledger.blank.performAll_pool requests
  change empty.performAll requests = _ at hrun
  rw [hrun]
  refine ⟨?_, fun replies pool h => ?_⟩
  · cases Ledger.blank.replies requests <;> rfl
  · cases hreplies : Ledger.blank.replies requests with
    | error error => rw [hreplies] at h; cases h
    | ok answers =>
      rw [hreplies] at h
      cases h
      exact Ledger.governs_pool _

/-- A clone of a clone interns what the first handle then looks up, and a table
created apart from theirs gives the same number to another text. -/
example :
    (Pool.empty.performAll [.create .shared, .create .sole, .intern ⟨0⟩ "x", .clone ⟨0⟩,
      .clone ⟨2⟩, .intern ⟨1⟩ "y", .intern ⟨3⟩ "y", .lookUp ⟨0⟩ ⟨2⟩, .size ⟨1⟩]).map Prod.fst
    = .ok [.handle ⟨0⟩, .handle ⟨1⟩, .name ⟨1⟩, .handle ⟨2⟩, .handle ⟨3⟩, .name ⟨1⟩,
      .name ⟨2⟩, .text "y", .count 2] := by decide

end SymbolTable

end ScopedAnnotations
