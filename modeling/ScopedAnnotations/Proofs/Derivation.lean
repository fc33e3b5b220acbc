import ScopedAnnotations.QualifiedName

/-!
# Derived paths

Paths are made out of paths, by going one segment further in and by anchoring at the
root, and the constants of a scope are kept under the paths that come out. Whether
two of them are one and the same key is decided on what is stored, and what is
stored moves about on the way: with every segment that is added, the one that was
last before goes to the others.

What is stored is no more than the segments and the anchoring, whatever way led
there. Each step adds its segment, if it has one, behind those that are there
(`QualifiedName.segments_derived`), and anchoring is never undone
(`QualifiedName.absolute_derived_iff`). So of the anchoring steps it does not matter
where they come, nor how many there are, but only whether there is any
(`QualifiedName.derived_eq_derived_iff`).
-/

namespace ScopedAnnotations

namespace QualifiedName

/-- **A way to make a path out of a path.** -/
inductive Step where
  /-- One segment further in. -/
  | child (name : Name)
  /-- The same segments, anchored at the root. -/
  | anchor
  deriving DecidableEq

namespace Step

/-- The path that a step makes. -/
def take (path : QualifiedName) : Step → QualifiedName
  | child name => path.child name
  | anchor => path.toAbsolute

/-- The segment that a step adds, if it adds one. -/
def name? : Step → Option Name
  | child name => some name
  | anchor => none

theorem segments_take (path : QualifiedName) (step : Step) :
    (take path step).segments = path.segments ++ step.name?.toList := by
  cases step with
  | child name => exact path.segments_child name
  | anchor => exact (List.append_nil _).symm

theorem absolute_take_iff (path : QualifiedName) (step : Step) :
    (take path step).absolute = true ↔ path.absolute = true ∨ .anchor = step := by
  cases step with
  | child name => exact (or_iff_left nofun).symm
  | anchor => exact iff_of_true rfl (.inr rfl)

end Step

/-- **The path that steps make**, taken one after the other. -/
def derived (base : QualifiedName) (steps : List Step) : QualifiedName :=
  steps.foldl Step.take base

/-- **Segments only ever come behind those that are there.** -/
theorem segments_derived (base : QualifiedName) (steps : List Step) :
    (base.derived steps).segments = base.segments ++ steps.filterMap Step.name? := by
  induction steps generalizing base with
  | nil => exact (List.append_nil _).symm
  | cons step steps ih =>
    show ((Step.take base step).derived steps).segments = _
    rw [ih, Step.segments_take, List.append_assoc]
    cases step <;> rfl

/-- **Anchoring is never undone**, and comes about in no other way. -/
theorem absolute_derived_iff (base : QualifiedName) (steps : List Step) :
    (base.derived steps).absolute = true ↔ base.absolute = true ∨ .anchor ∈ steps := by
  induction steps generalizing base with
  | nil => exact (or_iff_left List.not_mem_nil).symm
  | cons step steps ih =>
    show ((Step.take base step).derived steps).absolute = true ↔ _
    rw [ih, Step.absolute_take_iff, List.mem_cons, or_assoc]

/-- **Two ways lead to one path** exactly if they add up to the same segments and
either both of them anchor it, from the outset or on the way, or neither does. -/
theorem derived_eq_derived_iff {base base' : QualifiedName} {steps steps' : List Step} :
    base.derived steps = base'.derived steps'
      ↔ base.segments ++ steps.filterMap Step.name?
          = base'.segments ++ steps'.filterMap Step.name?
        ∧ (base.absolute = true ∨ .anchor ∈ steps
          ↔ base'.absolute = true ∨ .anchor ∈ steps') := by
  rw [QualifiedName.ext_iff, segments_derived, segments_derived, Bool.eq_iff_iff,
    absolute_derived_iff, absolute_derived_iff]

/-- A step that anchors adds no segment, wherever it comes. -/
theorem filterMap_name?_anchor (before after : List Step) :
    (before ++ .anchor :: after).filterMap Step.name? = (before ++ after).filterMap Step.name? := by
  rw [List.filterMap_append, List.filterMap_append, List.filterMap_cons_none rfl]

/-- **It does not matter where a path is anchored on the way**, nor how often. -/
theorem derived_eq_of_anchor_mem (base : QualifiedName) {steps steps' : List Step}
    (hnames : steps.filterMap Step.name? = steps'.filterMap Step.name?)
    (h : .anchor ∈ steps) (h' : .anchor ∈ steps') : base.derived steps = base.derived steps' :=
  derived_eq_derived_iff.mpr ⟨congrArg (base.segments ++ ·) hnames, iff_of_true (.inr h) (.inr h')⟩

/-- The last segment is the name, and the others qualify it. -/
theorem getLast?_segments (path : QualifiedName) : path.segments.getLast? = some path.name :=
  List.getLast?_concat

theorem dropLast_segments (path : QualifiedName) : path.segments.dropLast = path.qualifier :=
  List.dropLast_concat

/-- **A path is its segments and its anchoring**, whichever way it was made. Written
down at once, a path has the segments it is written with, and it is absolute if it is
written from the root. Made out of another one by steps, it has the segments of that
one followed by the names of the children, in order; the last of all segments is its
name and the others are its qualifier; and it is absolute if the path it was made
from was or if any of the steps anchored it. Two paths are equal, and are the same key
of a map, exactly if they have the same segments and the same anchoring. So two ways
lead to the same path if they agree in these, and in particular a step that anchors
may be put anywhere else among the others, and it may be repeated. -/
theorem derived_determined :
    (∀ (qualifier : List Name) (name : Name),
      (simple name).segments = [name] ∧ (simple name).absolute = false
      ∧ (relative qualifier name).segments = qualifier ++ [name]
      ∧ (relative qualifier name).absolute = false
      ∧ (rooted qualifier name).segments = qualifier ++ [name]
      ∧ (rooted qualifier name).absolute = true)
    ∧ (∀ (base : QualifiedName) (steps : List Step),
      let path := base.derived steps
      path.segments = base.segments ++ steps.filterMap Step.name?
      ∧ path.segments.getLast? = some path.name ∧ path.segments.dropLast = path.qualifier
      ∧ (path.absolute = true ↔ base.absolute = true ∨ .anchor ∈ steps))
    ∧ (∀ p q : QualifiedName, p = q ↔ p.segments = q.segments ∧ p.absolute = q.absolute)
    ∧ (∀ p q : QualifiedName, compare p q = .eq ↔ p = q)
    ∧ (∀ (base base' : QualifiedName) (steps steps' : List Step),
      base.derived steps = base'.derived steps'
        ↔ base.segments ++ steps.filterMap Step.name?
            = base'.segments ++ steps'.filterMap Step.name?
          ∧ (base.absolute = true ∨ .anchor ∈ steps
            ↔ base'.absolute = true ∨ .anchor ∈ steps'))
    ∧ (∀ (base : QualifiedName) (before between after : List Step),
      base.derived (before ++ .anchor :: between ++ after)
        = base.derived (before ++ between ++ .anchor :: after))
    ∧ ∀ (base : QualifiedName) (before after : List Step),
      base.derived (before ++ .anchor :: .anchor :: after)
        = base.derived (before ++ .anchor :: after) := by
  refine ⟨fun qualifier name => ⟨rfl, rfl, rfl, rfl, rfl, rfl⟩, fun base steps => ?_,
    fun p q => QualifiedName.ext_iff, fun p q => Std.compare_eq_iff_eq,
    fun base base' steps steps' => derived_eq_derived_iff,
    fun base before between after => ?_, fun base before after => ?_⟩
  · exact ⟨segments_derived base steps, getLast?_segments _, dropLast_segments _,
      absolute_derived_iff base steps⟩
  · rw [List.append_assoc, List.cons_append]
    refine derived_eq_of_anchor_mem base ?_ List.mem_append_cons_self List.mem_append_cons_self
    rw [filterMap_name?_anchor, filterMap_name?_anchor, List.append_assoc]
  · refine derived_eq_of_anchor_mem base ?_ List.mem_append_cons_self List.mem_append_cons_self
    rw [filterMap_name?_anchor]

end QualifiedName

end ScopedAnnotations
