import Mathlib.Algebra.Ring.Nat
import ScopedAnnotations.Proofs.Questions
import ScopedAnnotations.Proofs.Refusal

/-!
# Accounting for a session

A session is done with any number of resolvers, scopes and indexes, and its
commands build, merge, compare and query in any order. Of all of these only
queries put questions. This module settles, for a whole session, how many each
resolver has been asked at the end (`Session.performAll_accounts`): what the
queries cost that were put to the indexes of that resolver, one by one, and
nothing else. Nothing is remembered from one query to the next, since the sum
has a term for every query.

Which index a query is put to depends on what its name stands for at that
point, and a name may be given away again. The bookkeeping therefore follows
the names through the session. It looks at the commands alone and not at what
was answered, so no resolver can have a say in what it is asked.
-/

namespace ScopedAnnotations

/-! ## What names stand for -/

/-- What the names of a session stand for. -/
structure Labels where
  /-- The scopes, by name. -/
  scopes : Std.ExtTreeMap String ResolutionScope := ∅
  /-- The indexes, by name. -/
  indexes : Std.ExtTreeMap String Index := ∅

namespace Labels

/-- Whether every name that a command mentions stands for something. -/
def Knows (labels : Labels) : Command → Prop
  | .openScope _ _ | .calls _ => True
  | .build _ scope _ | .describeScope scope => scope ∈ labels.scopes
  | .merge _ outer inner => outer ∈ labels.indexes ∧ inner ∈ labels.indexes
  | .sameAs a b | .check a b => a ∈ labels.scopes ∧ b ∈ labels.scopes
  | .query index _ => index ∈ labels.indexes
  | .indexSameAs index scope => index ∈ labels.indexes ∧ scope ∈ labels.scopes

instance (labels : Labels) : (command : Command) → Decidable (labels.Knows command)
  | .openScope _ _ | .calls _ => isTrue trivial
  | .build _ scope _ | .describeScope scope => inferInstanceAs (Decidable (scope ∈ labels.scopes))
  | .merge _ outer inner =>
    inferInstanceAs (Decidable (outer ∈ labels.indexes ∧ inner ∈ labels.indexes))
  | .sameAs a b | .check a b => inferInstanceAs (Decidable (a ∈ labels.scopes ∧ b ∈ labels.scopes))
  | .query index _ => inferInstanceAs (Decidable (index ∈ labels.indexes))
  | .indexSameAs index scope =>
    inferInstanceAs (Decidable (index ∈ labels.indexes ∧ scope ∈ labels.scopes))

/-- Call an index by a name, if there is one. -/
def keep (labels : Labels) (label : String) : Option Index → Labels
  | some index => { labels with indexes := labels.indexes.insert label index }
  | none => labels

/-- **What the names stand for after a command.** A merge that is refused leaves
its name with whatever it stood for. -/
def after (labels : Labels) : Command → Labels
  | .openScope label scope => { labels with scopes := labels.scopes.insert label scope }
  | .build label scope annotations =>
    labels.keep label (labels.scopes[scope]?.map (Index.build annotations))
  | .merge label outer inner => labels.keep label do
    ((← labels.indexes[outer]?).merge (← labels.indexes[inner]?)).toOption
  | _ => labels

/-- The query that a command puts, and the index it is put to. -/
def asks (labels : Labels) : Command → Option (Index × Query)
  | .query label query => labels.indexes[label]?.map (·, query)
  | _ => none

/-- Whether every name that is mentioned stands for something when it is. -/
def KnowsAll (labels : Labels) : List Command → Prop
  | [] => True
  | command :: commands => labels.Knows command ∧ (labels.after command).KnowsAll commands

/-- **The queries that commands put**, in order, each with the index it is put
to. -/
def asked (labels : Labels) : List Command → List (Index × Query)
  | [] => []
  | command :: commands => (labels.asks command).toList ++ (labels.after command).asked commands

instance decidableKnowsAll (labels : Labels) (commands : List Command) :
    Decidable (labels.KnowsAll commands) :=
  match commands with
  | [] => inferInstanceAs (Decidable True)
  | command :: commands =>
    have := (labels.after command).decidableKnowsAll commands
    inferInstanceAs (Decidable (labels.Knows command ∧ (labels.after command).KnowsAll commands))

end Labels

/-- **What a resolver is asked**: the sum of what the queries cost that are put
to an index of this resolver. -/
def questionsTo (resolver : ResolverId) (asked : List (Index × Query)) : Nat :=
  ((asked.filter (·.1.scope.resolver = resolver)).map fun put => put.2.questions put.1).sum

theorem questionsTo_append (resolver : ResolverId) (asked asked' : List (Index × Query)) :
    questionsTo resolver (asked ++ asked')
      = questionsTo resolver asked + questionsTo resolver asked' := by
  unfold questionsTo
  rw [List.filter_append, List.map_append, List.sum_append]

theorem questionsTo_singleton (resolver : ResolverId) (index : Index) (query : Query) :
    questionsTo resolver [(index, query)]
      = if index.scope.resolver = resolver then query.questions index else 0 := by
  unfold questionsTo
  rw [List.filter_singleton]
  by_cases h : index.scope.resolver = resolver
  · rw [if_pos h, decide_eq_true h]
    rfl
  · rw [if_neg h, decide_eq_false h]
    rfl

namespace Session

/-- What the names of a session stand for. -/
def labels (session : Session) : Labels := ⟨session.scopes, session.indexes⟩

section Names

variable {session : Session} {label : String}

theorem scope_eq_ok_iff {scope : ResolutionScope} :
    session.scope label = .ok scope ↔ session.labels.scopes[label]? = some scope := by
  show Session.scope _ _ = _ ↔ session.scopes[label]? = some scope
  unfold Session.scope
  cases session.scopes[label]? with
  | none => exact iff_of_false nofun nofun
  | some found => rw [Except.ok.injEq, Option.some.injEq]

theorem index_eq_ok_iff {index : Index} :
    session.index label = .ok index ↔ session.labels.indexes[label]? = some index := by
  show Session.index _ _ = _ ↔ session.indexes[label]? = some index
  unfold Session.index
  cases session.indexes[label]? with
  | none => exact iff_of_false nofun nofun
  | some found => rw [Except.ok.injEq, Option.some.injEq]

theorem exists_scope_eq_ok_iff :
    (∃ scope, session.scope label = .ok scope) ↔ label ∈ session.labels.scopes := by
  rw [Std.ExtTreeMap.mem_iff_isSome_getElem?, Option.isSome_iff_exists]
  exact exists_congr (fun _ => scope_eq_ok_iff)

theorem exists_index_eq_ok_iff :
    (∃ index, session.index label = .ok index) ↔ label ∈ session.labels.indexes := by
  rw [Std.ExtTreeMap.mem_iff_isSome_getElem?, Option.isSome_iff_exists]
  exact exists_congr (fun _ => index_eq_ok_iff)

end Names

variable {τ μ : Type} (R : Resolvers Id τ μ)

/-- **A command is carried out** exactly if the names it mentions stand for
something. -/
theorem exists_perform_eq_ok_iff (session : Session) (command : Command) :
    (∃ out, session.perform R command = .ok out) ↔ session.labels.Knows command := by
  cases command with
  | openScope label scope => exact iff_of_true ⟨_, rfl⟩ trivial
  | calls resolver => exact iff_of_true ⟨_, rfl⟩ trivial
  | build label scope annotations =>
    exact (exists_bind_eq_ok_iff (fun _ => ⟨_, rfl⟩)).trans exists_scope_eq_ok_iff
  | describeScope scope =>
    exact (exists_bind_eq_ok_iff (fun _ => ⟨_, rfl⟩)).trans exists_scope_eq_ok_iff
  | query index query =>
    exact (exists_bind_eq_ok_iff (fun _ => ⟨_, rfl⟩)).trans exists_index_eq_ok_iff
  | merge label outer inner =>
    refine (exists_bind_bind_eq_ok_iff (fun o i => ?_)).trans
      (and_congr exists_index_eq_ok_iff exists_index_eq_ok_iff)
    rcases o.mergeTraced i with ⟨error | merged, records⟩
    · exact ⟨_, rfl⟩
    · exact ⟨_, rfl⟩
  | sameAs a b =>
    exact (exists_bind_bind_eq_ok_iff (fun _ _ => ⟨_, rfl⟩)).trans
      (and_congr exists_scope_eq_ok_iff exists_scope_eq_ok_iff)
  | check outer inner =>
    refine (exists_bind_bind_eq_ok_iff (fun o i => ?_)).trans
      (and_congr exists_scope_eq_ok_iff exists_scope_eq_ok_iff)
    cases o.checkCompatible i with
    | ok _ => exact ⟨_, rfl⟩
    | error e => exact ⟨_, rfl⟩
  | indexSameAs index scope =>
    exact (exists_bind_bind_eq_ok_iff (fun _ _ => ⟨_, rfl⟩)).trans
      (and_congr exists_index_eq_ok_iff exists_scope_eq_ok_iff)

/-- **What a command does**: what names stand for changes as it should, and the
resolvers have been asked what its query costs, if it puts one. -/
theorem perform_accounts {session next : Session} {command : Command}
    {reply : Traced (Reply τ μ)} (h : session.perform R command = .ok (reply, next)) :
    next.labels = session.labels.after command ∧ ∀ resolver, next.calls.count resolver
      = session.calls.count resolver
        + questionsTo resolver (session.labels.asks command).toList := by
  cases command with
  | openScope label scope =>
    cases h
    exact ⟨rfl, fun _ => rfl⟩
  | calls resolver =>
    cases h
    exact ⟨rfl, fun _ => rfl⟩
  | build label scope annotations =>
    obtain ⟨found, hfound, h⟩ := bind_eq_ok_iff.mp h
    cases h
    refine ⟨?_, fun _ => rfl⟩
    show _ = session.labels.keep label (session.labels.scopes[scope]?.map (Index.build annotations))
    rw [scope_eq_ok_iff.mp hfound]
    rfl
  | merge label outer inner =>
    obtain ⟨o, ho, h⟩ := bind_eq_ok_iff.mp h
    obtain ⟨i, hi, h⟩ := bind_eq_ok_iff.mp h
    have hafter : session.labels.after (.merge label outer inner)
        = session.labels.keep label (o.merge i).toOption := by
      show session.labels.keep label (session.labels.indexes[outer]?.bind fun o =>
        session.labels.indexes[inner]?.bind fun i => (o.merge i).toOption) = _
      rw [index_eq_ok_iff.mp ho, index_eq_ok_iff.mp hi]
      rfl
    rw [hafter]
    unfold Index.merge
    generalize o.mergeTraced i = made at h ⊢
    rcases made with ⟨error | merged, records⟩
    · cases h
      exact ⟨rfl, fun _ => rfl⟩
    · cases h
      exact ⟨rfl, fun _ => rfl⟩
  | sameAs a b =>
    obtain ⟨_, -, h⟩ := bind_eq_ok_iff.mp h
    obtain ⟨_, -, h⟩ := bind_eq_ok_iff.mp h
    cases h
    exact ⟨rfl, fun _ => rfl⟩
  | check outer inner =>
    obtain ⟨o, -, h⟩ := bind_eq_ok_iff.mp h
    obtain ⟨i, -, h⟩ := bind_eq_ok_iff.mp h
    cases hcheck : o.checkCompatible i with
    | ok _ =>
      rw [hcheck] at h
      cases h
      exact ⟨rfl, fun _ => rfl⟩
    | error e =>
      rw [hcheck] at h
      cases h
      exact ⟨rfl, fun _ => rfl⟩
  | describeScope scope =>
    obtain ⟨_, -, h⟩ := bind_eq_ok_iff.mp h
    cases h
    exact ⟨rfl, fun _ => rfl⟩
  | query label query =>
    obtain ⟨index, hindex, h⟩ := bind_eq_ok_iff.mp h
    cases h
    refine ⟨rfl, fun resolver => ?_⟩
    show _ = _ + questionsTo resolver (session.labels.indexes[label]?.map (·, query)).toList
    rw [index_eq_ok_iff.mp hindex]
    exact (query.putsTo_answer R index session.calls resolver).trans
      (congrArg _ (questionsTo_singleton resolver index query).symm)
  | indexSameAs index scope =>
    obtain ⟨_, -, h⟩ := bind_eq_ok_iff.mp h
    obtain ⟨_, -, h⟩ := bind_eq_ok_iff.mp h
    cases h
    exact ⟨rfl, fun _ => rfl⟩

/-! ## Whole sessions -/

/-- A session runs to its end exactly if every name that is mentioned stands for
something when it is. -/
theorem exists_performAll_eq_ok_iff (session : Session) (commands : List Command) :
    (∃ out, session.performAll R commands = .ok out) ↔ session.labels.KnowsAll commands := by
  induction commands generalizing session with
  | nil => exact iff_of_true ⟨_, rfl⟩ trivial
  | cons command commands ih =>
    constructor
    · rintro ⟨out, h⟩
      obtain ⟨⟨reply, next⟩, hstep, h⟩ := bind_eq_ok_iff.mp h
      obtain ⟨rest, hrest, -⟩ := bind_eq_ok_iff.mp h
      refine ⟨(exists_perform_eq_ok_iff R session command).mp ⟨_, hstep⟩, ?_⟩
      rw [← (perform_accounts R hstep).1]
      exact (ih next).mp ⟨rest, hrest⟩
    · rintro ⟨hknows, hrest⟩
      obtain ⟨⟨reply, next⟩, hstep⟩ := (exists_perform_eq_ok_iff R session command).mpr hknows
      rw [← (perform_accounts R hstep).1] at hrest
      obtain ⟨rest, hrest⟩ := (ih next).mpr hrest
      exact ⟨_, bind_eq_ok_iff.mpr ⟨_, hstep, bind_eq_ok_iff.mpr ⟨rest, hrest, rfl⟩⟩⟩

/-- What a run adds to the count of a resolver is what its queries cost. -/
theorem count_performAll {session final : Session} {commands : List Command}
    {replies : List (Traced (Reply τ μ))}
    (h : session.performAll R commands = .ok (replies, final)) (resolver : ResolverId) :
    final.calls.count resolver
      = session.calls.count resolver + questionsTo resolver (session.labels.asked commands) := by
  induction commands generalizing session replies with
  | nil =>
    cases h
    rfl
  | cons command commands ih =>
    obtain ⟨⟨reply, next⟩, hstep, h⟩ := bind_eq_ok_iff.mp h
    obtain ⟨⟨rest, last⟩, hrest, h⟩ := bind_eq_ok_iff.mp h
    cases h
    obtain ⟨hlabels, hcount⟩ := perform_accounts R hstep
    rw [ih hrest, hcount, hlabels, Nat.add_assoc, ← questionsTo_append]
    rfl

/-- **The books of a session.** A session that starts from nothing runs to its
end exactly if no command mentions a name that stands for nothing, and every
resolver has then been asked exactly what the queries cost that were put to its
indexes. -/
theorem performAll_accounts (commands : List Command) :
    ((∃ out, performAll R {} commands = .ok out) ↔ Labels.KnowsAll {} commands)
      ∧ ∀ replies final, performAll R {} commands = .ok (replies, final) →
        ∀ resolver, final.calls.count resolver
          = questionsTo resolver (Labels.asked {} commands) := by
  refine ⟨exists_performAll_eq_ok_iff R {} commands, fun replies final h resolver => ?_⟩
  have hnone : ({} : Session).calls.count resolver = 0 := Calls.count_none resolver
  rw [count_performAll R h resolver, hnone, Nat.zero_add]
  rfl

/-- A nested block redeclares a variable and declares a method, and a merge with
a block of another resolver is refused. -/
def nestedBlockCommands : List Command :=
  let x : Name := ⟨1⟩
  let y : Name := ⟨2⟩
  let each : Name := ⟨3⟩
  [.openScope "main" ⟨⟨0⟩, .root⟩,
    .openScope "foreign" ⟨⟨1⟩, .root⟩,
    .build "outer" "main"
      [.varType x .any, .varType x .nil, .varType y (.optional .bool), .blockType .void],
    .build "inner" "main"
      [.varType x (.tuple [.any, .any]),
        .methodType each { params := [.optional .bool], ret := .union [.bool, .nil] }],
    .build "stranger" "foreign" [.varType x .bool],
    .merge "block" "outer" "inner",
    .merge "block" "block" "stranger",
    .query "block" .localVariableTypes,
    .query "block" (.methodType each),
    .query "block" (.methodType each),
    .query "block" (.slotType .blockType),
    .query "block" (.variableExpr (.localVar x)),
    .query "stranger" (.variableType (.localVar x))]

/-- Two variables and twice a method are asked of one resolver, and one variable
of the other. -/
theorem performAll_accounts_nested_block :
    ∃ replies final,
      performAll (fun _ => .echo) {} nestedBlockCommands = .ok (replies, final)
        ∧ final.calls.count ⟨0⟩ = 4 ∧ final.calls.count ⟨1⟩ = 1 := by
  obtain ⟨hruns, hcount⟩ := performAll_accounts (fun _ => .echo) nestedBlockCommands
  obtain ⟨⟨replies, final⟩, hrun⟩ := hruns.mpr (by decide)
  refine ⟨replies, final, hrun, ?_, ?_⟩
  · exact (hcount replies final hrun ⟨0⟩).trans (by decide)
  · exact (hcount replies final hrun ⟨1⟩).trans (by decide)

end Session

end ScopedAnnotations
