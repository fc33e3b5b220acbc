import ScopedAnnotations.Proofs.Overlay

/-!
# Reports account for the annotations

Someone who reads the records of a merge wants to know what became of each
annotation, and has only counts and kinds to go by. Nothing in a record says
which index it belongs to, and two pieces of work leave records during one merge:
the merge itself, which counts what it leaves out, and the making of the merged
index, which knows nothing of what was left out and counts what it is given. Only
together do the counts come out right. This module says that they do: whatever the
two lists of annotations are, the *report* of a merge is the one written out in
`Index.report_accounts`, line by line.

A report has a line for each event and none for the opening of a span. Spans say
how records are grouped, so doing something inside of one leaves the events as
they were (`Traced.events_inside`), and the events of work made of several pieces
are those of the pieces, one after another (`Traced.events_bind`).
-/

namespace ScopedAnnotations

/-- What happened, if the record is about something that happened. -/
def Entry.event? : Entry → Option Event
  | opened _ => none
  | event happened => some happened

/-- **A line of a report**: what happened, and the labelled fields. -/
def Event.line (event : Event) : String × List (String × FieldValue) :=
  (event.message, event.fields)

namespace Traced

variable {α β : Type}

/-- **What happened during some work**, in order. -/
def events (t : Traced α) : List Event := t.records.filterMap fun record => record.entry.event?

/-- **The report of some work**: a line for everything that happened. -/
def report (t : Traced α) : List (String × List (String × FieldValue)) := t.events.map Event.line

@[simp]
theorem events_pure (a : α) : (pure a : Traced α).events = [] := rfl

/-- What happens in two pieces of work happens in the first one first. -/
@[simp]
theorem events_bind (t : Traced α) (f : α → Traced β) :
    (t >>= f).events = t.events ++ (f t.value).events := by
  unfold events
  rw [records_bind, List.filterMap_append]

@[simp]
theorem events_map (f : α → β) (t : Traced α) : (f <$> t).events = t.events := by
  unfold events
  rw [records_map]

@[simp]
theorem events_emit (event : Event) : (emit event).events = [event] := rfl

/-- **Nothing happens by opening a span**, and what happens inside of it is the
same as outside. -/
@[simp]
theorem events_inside (span : Span) (t : Traced α) : (inside span t).events = t.events := by
  unfold events inside
  rw [List.filterMap_cons_none rfl, List.filterMap_map]
  rfl

@[simp]
theorem events_attach (t : Traced α) : t.attach.events = t.events := rfl

end Traced

/-- Filing a list is filing its annotations, each of which is told of once and by
its kind. -/
@[simp]
theorem Classified.events_fileAllTraced (classified : Classified) (as : List Annotation) :
    (classified.fileAllTraced as).events = as.map fun a => .classified a.kind := by
  unfold Traced.events
  rw [records_fileAllTraced, List.filterMap_map]
  exact congrFun List.filterMap_eq_map as

namespace Index

/-- **Making an index** tells of every annotation and then of their number. -/
theorem events_buildTraced (as : List Annotation) (scope : ResolutionScope) :
    (buildTraced as scope).events
      = as.map (fun a => .classified a.kind) ++ [.indexed as.length] := by
  unfold buildTraced
  simp

/-- **A refused merge** tells of the refusal alone. -/
theorem events_mergeTraced_of_error {outer inner : Index} {e : IndexError}
    (h : outer.scope.checkCompatible inner.scope = .error e) :
    (outer.mergeTraced inner).events = [.rejected e] := by
  unfold mergeTraced
  rw [h]
  rfl

/-- **A merge that is not refused** tells of what is left out, if there is
anything to tell, and then of the merged index. -/
theorem events_mergeTraced_of_ok {outer inner : Index}
    (h : outer.scope.checkCompatible inner.scope = .ok ()) :
    (outer.mergeTraced inner).events
      = (if 0 < outer.annotations.countP Annotation.isBlockScoped then
          [.dropped (outer.annotations.countP Annotation.isBlockScoped)] else [])
        ++ (buildTraced (outer.inherited ++ inner.annotations) outer.scope).events := by
  unfold mergeTraced
  rw [h, List.partition_eq_filter_filter, List.countP_eq_length_filter]
  simp only [Traced.events_inside]
  split
  · case isTrue hdropped =>
    rw [if_pos (List.length_pos_iff.mpr hdropped), Traced.events_bind, Traced.events_emit,
      Traced.events_bind, Traced.events_pure, List.append_nil]
    rfl
  · case isFalse hdropped =>
    rw [if_neg (mt List.length_pos_iff.mp hdropped), Traced.events_bind, Traced.events_pure,
      List.append_nil]
    rfl

/-- The report of making an index. -/
theorem report_buildTraced (as : List Annotation) (scope : ResolutionScope) :
    (buildTraced as scope).report
      = as.map (fun a => ("classify annotation", [("kind", .text a.kind.label)]))
        ++ [("indexed annotations", [("count", .number as.length)])] := by
  unfold Traced.report
  rw [events_buildTraced, List.map_append, List.map_map]
  rfl

/-- **Reports account for the annotations.** Making an index reports every
annotation by its kind, in order, and then how many there were. A merge that is
not refused reports how many annotations of the outer index are left out, unless
there are none; then, in order, every annotation that is inherited and every one
of the inner index; and last how many these are, which is all of both but those
left out. A merge that is refused reports the message of its error, and nothing
else. -/
theorem report_accounts :
    let filed (a : Annotation) := ("classify annotation", [("kind", FieldValue.text a.kind.label)])
    (∀ (as : List Annotation) (scope : ResolutionScope), (buildTraced as scope).report
      = as.map filed ++ [("indexed annotations", [("count", .number as.length)])])
    ∧ ∀ outer inner : Index,
      let leftOut := outer.annotations.countP Annotation.isBlockScoped
      (outer.mergeTraced inner).report = match outer.merge inner with
        | .ok _ =>
          (if 0 < leftOut then
            [("dropping outer block-scoped annotations", [("dropped", .number leftOut)])] else [])
          ++ (outer.annotations.filter fun a => !a.isBlockScoped).map filed
          ++ inner.annotations.map filed
          ++ [("indexed annotations", [("count", .number (outer.size - leftOut + inner.size))])]
        | .error e => [("rejected block scope merge", [("err", .text (toString e))])] := by
  intro filed
  refine ⟨report_buildTraced, fun outer inner => ?_⟩
  intro leftOut
  rw [merge_eq]
  cases h : outer.scope.checkCompatible inner.scope with
  | error e =>
    unfold Traced.report
    rw [events_mergeTraced_of_error h]
    rfl
  | ok u =>
    have hcount : (outer.inherited ++ inner.annotations).length
        = outer.size - leftOut + inner.size := by
      rw [List.length_append, length_inherited]
      rfl
    have hmerged := report_buildTraced (outer.inherited ++ inner.annotations) outer.scope
    rw [hcount, List.map_append] at hmerged
    show (outer.mergeTraced inner).events.map Event.line = _ ++ _ ++ _ ++ _
    rw [events_mergeTraced_of_ok h, List.map_append, apply_ite (List.map Event.line),
      List.append_assoc, List.append_assoc]
    exact congrArg (_ ++ ·) (hmerged.trans (List.append_assoc _ _ _))

end Index

end ScopedAnnotations
