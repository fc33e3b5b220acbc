import Mathlib.Data.List.Forall2
import ScopedAnnotations.Proofs.Outline
import ScopedAnnotations.Resolver.Anchoring

/-!
# What anchoring does to an expression

Two things are expected of the anchoring resolver, and they pull in different
directions. It should do enough: what comes out should mean the same wherever
it is read from then on, so that anchoring it once more, in this module or in
another, has nothing left to do (`Resolver.anchoring_canonical`). And it should
do no more than that: the paths are rewritten where they stand, and nothing
else is touched (`Resolver.anchoring_in_place`).

The first is about the paths of an expression one by one and follows from what
anchoring does to a single path, which it leaves alone exactly if it is
absolute. The second is said in terms of the outline and the list of the paths.
These two determine an expression, so they do not merely describe what the
resolver answers: there is only one expression that fits the description, and
it is the answer.
-/

namespace ScopedAnnotations

variable {c c' : ModuleContext}

namespace QualifiedName

/-- **Anchoring leaves a path alone exactly if it is absolute.** -/
theorem anchor_eq_self_iff {p : QualifiedName} : p.anchor c = p ↔ p.absolute = true := by
  refine ⟨fun h => ?_, anchor_of_absolute⟩
  rw [← h]
  exact absolute_anchor c p

/-- **What becomes of a path in a module.** An absolute path is kept. A
relative one becomes an absolute one, with the names of the module in front of
its own segments. -/
def AnchoredAs (c : ModuleContext) (p q : QualifiedName) : Prop :=
  (p.absolute = true → q = p)
    ∧ (p.absolute = false → q.absolute = true ∧ q.segments = c.path ++ p.segments)

/-- Only one path fits the description, and it is what anchoring makes. -/
theorem anchoredAs_iff {p q : QualifiedName} : AnchoredAs c p q ↔ p.anchor c = q := by
  rcases Bool.eq_false_or_eq_true p.absolute with habs | hrel
  · rw [anchor_of_absolute habs]
    constructor
    · rintro ⟨hkept, -⟩
      exact (hkept habs).symm
    · rintro rfl
      exact ⟨fun _ => rfl, fun hrel => absurd (habs.symm.trans hrel) nofun⟩
  · have hsegments : (p.anchor c).segments = c.path ++ p.segments :=
      segments_anchor_of_relative hrel
    constructor
    · rintro ⟨-, hmoved⟩
      obtain ⟨habs, hq⟩ := hmoved hrel
      exact ext (hsegments.trans hq.symm) ((absolute_anchor c p).trans habs.symm)
    · rintro rfl
      exact ⟨fun habs => absurd (habs.symm.trans hrel) nofun,
        fun _ => ⟨absolute_anchor c p, hsegments⟩⟩

theorem forall₂_anchoredAs_iff {ps qs : List QualifiedName} :
    List.Forall₂ (AnchoredAs c) ps qs ↔ ps.map (anchor c) = qs := by
  have hfunction : AnchoredAs c = fun p q => p.anchor c = q := by
    funext p q
    exact propext anchoredAs_iff
  rw [hfunction, ← List.forall₂_map_left_iff, List.forall₂_eq_eq_eq]

end QualifiedName

/-! ## Types -/

namespace TypeExpr

theorem paths_anchor (t : TypeExpr) :
    (t.anchor c).paths = t.paths.map (QualifiedName.anchor c) :=
  paths_mapPaths _ t

/-- **Nothing relative is left.** -/
theorem isRelative_anchor (t : TypeExpr) : (t.anchor c).isRelative = false := by
  rw [isRelative_eq_false_iff, paths_anchor]
  simp

/-- **Anchoring leaves an expression alone exactly if nothing in it is
relative.** -/
theorem anchor_eq_self_iff {t : TypeExpr} : t.anchor c = t ↔ t.isRelative = false := by
  refine mapPaths_eq_self_iff.trans (Iff.trans ?_ isRelative_eq_false_iff.symm)
  exact forall₂_congr (fun _ _ => QualifiedName.anchor_eq_self_iff)

/-- What is anchored in one module stays as it is in any other. -/
theorem anchor_anchor (t : TypeExpr) : (t.anchor c).anchor c' = t.anchor c :=
  anchor_eq_self_iff.mpr (isRelative_anchor t)

theorem isRelative_eq_true_iff {t : TypeExpr} :
    t.isRelative = true ↔ ∃ p ∈ t.paths, p.absolute = false := by
  rw [isRelative_eq_any, List.any_eq_true]
  simp only [Bool.not_eq_true']

/-- **The answer is the expression with the same outline** and with every path
anchored where it stands. -/
theorem anchor_eq_iff {t u : TypeExpr} :
    t.anchor c = u
      ↔ u.outline = t.outline ∧ List.Forall₂ (QualifiedName.AnchoredAs c) t.paths u.paths := by
  rw [QualifiedName.forall₂_anchoredAs_iff]
  exact mapPaths_eq_iff

end TypeExpr

/-! ## Methods

A method type is made into a type by a single constructor, which adds no path
and is not touched by anchoring. So what holds of types holds of method
types. -/

namespace Signature

theorem anchor_eq_iff_proc {method result : MethodType} :
    method.anchor c = result ↔ (TypeExpr.proc method).anchor c = .proc result :=
  (iff_of_eq (TypeExpr.proc.injEq _ _)).symm

/-- Nothing relative is left. -/
theorem isRelative_anchor (method : MethodType) : (method.anchor c).isRelative = false :=
  TypeExpr.isRelative_anchor (.proc method)

theorem anchor_eq_self_iff {method : MethodType} :
    method.anchor c = method ↔ method.isRelative = false :=
  anchor_eq_iff_proc.trans TypeExpr.anchor_eq_self_iff

theorem isRelative_eq_true_iff {method : MethodType} :
    method.isRelative = true ↔ ∃ p ∈ method.paths, p.absolute = false :=
  TypeExpr.isRelative_eq_true_iff (t := .proc method)

theorem anchor_eq_iff {method result : MethodType} :
    method.anchor c = result
      ↔ result.outline = method.outline
        ∧ List.Forall₂ (QualifiedName.AnchoredAs c) method.paths result.paths := by
  rw [anchor_eq_iff_proc, TypeExpr.anchor_eq_iff]
  exact and_congr_left' (iff_of_eq (Outline.proc.injEq _ _))

end Signature

/-! ## The resolver -/

namespace Resolver

/-- **Anchoring ends in a canonical form.** Whatever the type and whatever the
module, nothing in the answer is relative. Anchoring the answer once more, in
any module, does not change it. And the answer is the type that was asked about
exactly if there was nothing relative in it to begin with. The same holds of
method types. -/
theorem anchoring_canonical (c c' : ModuleContext) :
    (∀ type : TypeExpr, (anchoring.resolveType type c).run.isRelative = false
      ∧ anchoring.resolveType (anchoring.resolveType type c).run c' = anchoring.resolveType type c
      ∧ ((anchoring.resolveType type c).run = type ↔ type.isRelative = false))
    ∧ ∀ method : MethodType, (anchoring.resolveMethod method c).run.isRelative = false
      ∧ anchoring.resolveMethod (anchoring.resolveMethod method c).run c'
        = anchoring.resolveMethod method c
      ∧ ((anchoring.resolveMethod method c).run = method ↔ method.isRelative = false) := by
  refine ⟨fun type => ⟨type.isRelative_anchor, type.anchor_anchor, TypeExpr.anchor_eq_self_iff⟩,
    fun method => ⟨method.isRelative_anchor, ?_, Signature.anchor_eq_self_iff⟩⟩
  exact Signature.anchor_eq_self_iff.mpr method.isRelative_anchor

/-- **Anchoring rewrites the paths in place.** The answer is the one expression
that has the outline of the type and, from left to right, a path for every path
of the type: the same one if it is absolute, and if it is relative the absolute
one with the names of the module in front. That a type is relative means that
there is a relative path in the list. The same holds of method types. -/
theorem anchoring_in_place (c : ModuleContext) :
    (∀ type result : TypeExpr, (anchoring.resolveType type c).run = result
      ↔ result.outline = type.outline
        ∧ List.Forall₂ (QualifiedName.AnchoredAs c) type.paths result.paths)
    ∧ (∀ type : TypeExpr, type.isRelative = true ↔ ∃ p ∈ type.paths, p.absolute = false)
    ∧ (∀ method result : MethodType, (anchoring.resolveMethod method c).run = result
      ↔ result.outline = method.outline
        ∧ List.Forall₂ (QualifiedName.AnchoredAs c) method.paths result.paths)
    ∧ ∀ method : MethodType,
      method.isRelative = true ↔ ∃ p ∈ method.paths, p.absolute = false :=
  ⟨fun _ _ => TypeExpr.anchor_eq_iff, fun _ => TypeExpr.isRelative_eq_true_iff,
    fun _ _ => Signature.anchor_eq_iff, fun _ => Signature.isRelative_eq_true_iff⟩

end Resolver

end ScopedAnnotations
