import ScopedAnnotations.Text.Describe

/-!
# Resolution scopes

What a type expression stands for is not this library's to say. A *resolver*
says it, given the expression and the module context it was written in; a
*resolution scope* is the resolver and the context that a body of annotations
goes by.

Two scopes are the same when they go by the very same resolver and by equal
contexts. Resolvers are compared by identity: two of them may well agree on
every expression and still keep separate books, so each has an identifier, and
it is the identifiers that are compared. When two scopes differ in both
respects the resolver is the reason given, because contexts of different
resolvers are not comparable in the first place.
-/

namespace ScopedAnnotations

/-- The identity of a resolver. -/
structure ResolverId where
  /-- The resolver's number. -/
  index : Nat
  deriving DecidableEq, Repr

namespace ResolverId

@[ext]
theorem ext {a b : ResolverId} (h : a.index = b.index) : a = b := by
  cases a; cases b; simp_all

instance : Ord ResolverId := ⟨fun a b => compare a.index b.index⟩

theorem compare_def (a b : ResolverId) : compare a b = compare a.index b.index := rfl

instance : Std.TransOrd ResolverId where
  eq_swap := by
    intro a b
    simp only [compare_def]
    exact Std.OrientedCmp.eq_swap
  isLE_trans := by
    intro a b c h h'
    simp only [compare_def] at *
    exact Std.TransCmp.isLE_trans h h'

instance : Std.LawfulEqOrd ResolverId where
  compare_self := by
    intro a
    simp only [compare_def]
    exact Std.ReflCmp.compare_self
  eq_of_compare := by
    intro a b h
    simp only [compare_def] at h
    exact ext (Std.LawfulEqCmp.eq_of_compare h)

end ResolverId

/-- The resolver and the module context that annotations go by. -/
structure ResolutionScope where
  /-- Who says what an expression stands for. -/
  resolver : ResolverId
  /-- The module that relative names are read in. -/
  context : ModuleContext
  deriving DecidableEq

/-- In what two scopes differ. -/
inductive ScopeMismatch where
  /-- They go by different resolvers. -/
  | resolver
  /-- They go by one resolver, in different modules. -/
  | context (outer inner : ModuleContext)
  deriving DecidableEq

/-- What can go wrong between two bodies of annotations. -/
inductive IndexError where
  /-- They were made under different scopes. -/
  | incompatibleScope (mismatch : ScopeMismatch)
  deriving DecidableEq

instance : ToString ScopeMismatch where
  toString
    | .resolver => "resolver instances differ"
    | .context outer inner =>
      "module contexts differ (outer: " ++ describe outer.module? ++ ", inner: "
        ++ describe inner.module? ++ ")"

instance : ToString IndexError where
  toString
    | .incompatibleScope mismatch =>
      "cannot merge annotations from an incompatible scope: " ++ toString mismatch

namespace ResolutionScope

/-- Whether another scope is the same as this one, and if not, in what it
differs. The resolver is compared first. -/
def checkCompatible (outer inner : ResolutionScope) : Except IndexError Unit :=
  if outer.resolver ≠ inner.resolver then
    .error (.incompatibleScope .resolver)
  else if outer.context ≠ inner.context then
    .error (.incompatibleScope (.context outer.context inner.context))
  else
    .ok ()

/-- Whether two scopes are the same. -/
def sameAs (a b : ResolutionScope) : Bool := (a.checkCompatible b).isOk

/-- A scope is compatible with itself and with no other. -/
theorem checkCompatible_eq_ok_iff {outer inner : ResolutionScope} :
    outer.checkCompatible inner = .ok () ↔ outer = inner := by
  obtain ⟨r, c⟩ := outer
  obtain ⟨r', c'⟩ := inner
  by_cases hr : r = r' <;> by_cases hc : c = c' <;> simp [checkCompatible, hr, hc]

/-- Two scopes are found to be the same exactly when they are. -/
@[simp]
theorem sameAs_iff {a b : ResolutionScope} : a.sameAs b = true ↔ a = b := by
  unfold sameAs
  rw [← checkCompatible_eq_ok_iff]
  cases a.checkCompatible b with
  | ok u => exact iff_of_true rfl rfl
  | error e => exact iff_of_false Bool.false_ne_true nofun

end ResolutionScope

/-! ## How scopes and errors are shown

A resolver has no text of its own; a fixed word stands in for it. -/

instance : Describable ResolverId := ⟨fun _ => .word "PTR"⟩

instance : Describable ResolutionScope where
  term scope := .record "ResolutionScope"
    [("resolver", term scope.resolver), ("context", term scope.context)] false

instance : Describable ScopeMismatch where
  term
    | .resolver => .word "Resolver"
    | .context outer inner =>
      .record "Context" [("outer", term outer), ("inner", term inner)] false

instance : Describable IndexError where
  term
    | .incompatibleScope mismatch =>
      .record "IncompatibleScope" [("mismatch", term mismatch)] false

end ScopedAnnotations
