import Mathlib.Logic.Basic
import ScopedAnnotations.Proofs.Paths

/-!
# Outlines

Blank out every path in a type expression. What is left is its *outline*: the
constructors and how they are nested, how many of everything there are and in
which order, the type variables, what a signature binds, and whether its block
is required. An outline is a type of its own and has no room for a path, so
that nothing of the paths can be left over in it.

An expression is its outline and its paths, and nothing else
(`TypeExpr.eq_of_outline_eq_of_paths_eq`). A replacement of paths leaves the
outline alone (`TypeExpr.outline_mapPaths`), and what it makes of the paths is
said in `TypeExpr.paths_mapPaths`; the two together say all there is to say
about it (`TypeExpr.mapPaths_eq_iff`). So replacements make the same of an
expression exactly if they make the same of every path in it.
-/

namespace ScopedAnnotations

/-- **A type expression with its paths blanked out.** -/
inductive Outline where
  | any
  | void
  | nil
  | bool
  | selfType
  | instanceType
  | classType
  /-- Type variables are not paths and are kept. -/
  | var (name : Name)
  /-- A named type, of which only the type arguments are left. -/
  | named (args : List Outline)
  | tuple (elems : List Outline)
  | union (members : List Outline)
  | optional (inner : Outline)
  | proc (method : Signature Outline)

namespace TypeExpr

mutual

/-- Blank out the paths in an expression. -/
def outline : TypeExpr → Outline
  | any => .any
  | void => .void
  | nil => .nil
  | bool => .bool
  | selfType => .selfType
  | instanceType => .instanceType
  | classType => .classType
  | var name => .var name
  | named _ args => .named (outlineAll args)
  | tuple elems => .tuple (outlineAll elems)
  | union members => .union (outlineAll members)
  | optional inner => .optional inner.outline
  | proc method => .proc (outlineSignature method)

/-- Blank out the paths in each of the expressions. -/
def outlineAll : List TypeExpr → List Outline
  | [] => []
  | t :: ts => t.outline :: outlineAll ts

/-- Blank out the paths in the parameters, the block and the result. -/
def outlineSignature : Signature TypeExpr → Signature Outline
  | ⟨vars, params, none, ret⟩ => ⟨vars, outlineAll params, none, ret.outline⟩
  | ⟨vars, params, some ⟨blockParams, blockRet, required⟩, ret⟩ =>
    ⟨vars, outlineAll params,
      some ⟨outlineAll blockParams, blockRet.outline, required⟩, ret.outline⟩

end

end TypeExpr

/-- A method type with its paths blanked out. -/
def Signature.outline (method : MethodType) : Signature Outline :=
  TypeExpr.outlineSignature method

namespace TypeExpr

/-! ## Replacements leave the outline alone -/

section MapPaths

variable (f : QualifiedName → QualifiedName)

mutual

/-- **A replacement changes nothing but paths.** -/
theorem outline_mapPaths : ∀ t : TypeExpr, (t.mapPaths f).outline = t.outline
  | any | void | nil | bool | selfType | instanceType | classType | var _ => rfl
  | named _ args => congrArg Outline.named (outlineAll_mapPathsAll args)
  | tuple elems => congrArg Outline.tuple (outlineAll_mapPathsAll elems)
  | union members => congrArg Outline.union (outlineAll_mapPathsAll members)
  | optional inner => congrArg Outline.optional (outline_mapPaths inner)
  | proc method => congrArg Outline.proc (outlineSignature_mapPathsSignature method)

theorem outlineAll_mapPathsAll :
    ∀ ts : List TypeExpr, outlineAll (mapPathsAll f ts) = outlineAll ts
  | [] => rfl
  | t :: ts => by
    rw [mapPathsAll, outlineAll, outlineAll, outline_mapPaths t, outlineAll_mapPathsAll ts]

theorem outlineSignature_mapPathsSignature :
    ∀ s : Signature TypeExpr, outlineSignature (mapPathsSignature f s) = outlineSignature s
  | ⟨_, params, none, ret⟩ => by
    rw [mapPathsSignature, outlineSignature, outlineSignature, outlineAll_mapPathsAll params,
      outline_mapPaths ret]
  | ⟨_, params, some ⟨blockParams, blockRet, _⟩, ret⟩ => by
    rw [mapPathsSignature, outlineSignature, outlineSignature, outlineAll_mapPathsAll params,
      outlineAll_mapPathsAll blockParams, outline_mapPaths blockRet, outline_mapPaths ret]

end

end MapPaths

/-! ## An expression is its outline and its paths

Where the paths of one part end and those of the next begin is not marked in
the list, but the outline says how many belong to each. So the statement that
goes through the recursion is about a list that begins with the paths of an
expression and goes on somehow. -/

-- By recursion on the left expression; the outline decides the constructor of the right one.
mutual

theorem eq_of_outline_eq_of_append_eq :
    ∀ (s t : TypeExpr) {ps qs : List QualifiedName}, s.outline = t.outline →
      s.paths ++ ps = t.paths ++ qs → s = t ∧ ps = qs
  | any, t, _, _, ho, hp | void, t, _, _, ho, hp | nil, t, _, _, ho, hp | bool, t, _, _, ho, hp
  | selfType, t, _, _, ho, hp | instanceType, t, _, _, ho, hp | classType, t, _, _, ho, hp
  | var _, t, _, _, ho, hp => by cases t <;> simp_all [outline, paths]
  | named path args, t, _, _, ho, hp => by
    cases t with
    | named path' args' =>
      obtain ⟨hpath, hrest⟩ := List.cons.inj hp
      obtain ⟨hargs, hend⟩ := eq_of_outlineAll_eq_of_append_eq args args' (Outline.named.inj ho) hrest
      exact ⟨congrArg₂ named hpath hargs, hend⟩
    | _ => cases ho
  | tuple elems, t, _, _, ho, hp => by
    cases t with
    | tuple elems' =>
      obtain ⟨h, hend⟩ := eq_of_outlineAll_eq_of_append_eq elems elems' (Outline.tuple.inj ho) hp
      exact ⟨congrArg tuple h, hend⟩
    | _ => cases ho
  | union members, t, _, _, ho, hp => by
    cases t with
    | union members' =>
      obtain ⟨h, hend⟩ :=
        eq_of_outlineAll_eq_of_append_eq members members' (Outline.union.inj ho) hp
      exact ⟨congrArg union h, hend⟩
    | _ => cases ho
  | optional inner, t, _, _, ho, hp => by
    cases t with
    | optional inner' =>
      obtain ⟨h, hend⟩ := eq_of_outline_eq_of_append_eq inner inner' (Outline.optional.inj ho) hp
      exact ⟨congrArg optional h, hend⟩
    | _ => cases ho
  | proc method, t, _, _, ho, hp => by
    cases t with
    | proc method' =>
      obtain ⟨h, hend⟩ :=
        eq_of_outlineSignature_eq_of_append_eq method method' (Outline.proc.inj ho) hp
      exact ⟨congrArg proc h, hend⟩
    | _ => cases ho

theorem eq_of_outlineAll_eq_of_append_eq :
    ∀ (ss ts : List TypeExpr) {ps qs : List QualifiedName}, outlineAll ss = outlineAll ts →
      pathsAll ss ++ ps = pathsAll ts ++ qs → ss = ts ∧ ps = qs
  | [], [], _, _, _, hp => ⟨rfl, hp⟩
  | s :: ss, t :: ts, _, _, ho, hp => by
    obtain ⟨hhead, htail⟩ := List.cons.inj ho
    rw [pathsAll, pathsAll, List.append_assoc, List.append_assoc] at hp
    obtain ⟨hs, hp⟩ := eq_of_outline_eq_of_append_eq s t hhead hp
    obtain ⟨hss, hend⟩ := eq_of_outlineAll_eq_of_append_eq ss ts htail hp
    exact ⟨congrArg₂ List.cons hs hss, hend⟩

theorem eq_of_outlineSignature_eq_of_append_eq :
    ∀ (s t : Signature TypeExpr) {ps qs : List QualifiedName},
      outlineSignature s = outlineSignature t →
      pathsSignature s ++ ps = pathsSignature t ++ qs → s = t ∧ ps = qs
  | ⟨_, params, none, ret⟩, ⟨_, params', none, ret'⟩, _, _, ho, hp => by
    obtain ⟨rfl, hparams, -, hret⟩ := Signature.mk.inj ho
    rw [pathsSignature, pathsSignature, List.append_assoc, List.append_assoc] at hp
    obtain ⟨rfl, hp₁⟩ := eq_of_outlineAll_eq_of_append_eq params params' hparams hp
    obtain ⟨rfl, hend⟩ := eq_of_outline_eq_of_append_eq ret ret' hret hp₁
    exact ⟨rfl, hend⟩
  | ⟨_, params, some ⟨blockParams, blockRet, _⟩, ret⟩,
    ⟨_, params', some ⟨blockParams', blockRet', _⟩, ret'⟩, _, _, ho, hp => by
    obtain ⟨rfl, hparams, hblock, hret⟩ := Signature.mk.inj ho
    obtain ⟨hblockParams, hblockRet, rfl⟩ := BlockSignature.mk.inj (Option.some_inj.mp hblock)
    rw [pathsSignature, pathsSignature] at hp
    simp only [List.append_assoc] at hp
    obtain ⟨rfl, hp₁⟩ := eq_of_outlineAll_eq_of_append_eq params params' hparams hp
    obtain ⟨rfl, hp₂⟩ := eq_of_outlineAll_eq_of_append_eq blockParams blockParams' hblockParams hp₁
    obtain ⟨rfl, hp₃⟩ := eq_of_outline_eq_of_append_eq blockRet blockRet' hblockRet hp₂
    obtain ⟨rfl, hend⟩ := eq_of_outline_eq_of_append_eq ret ret' hret hp₃
    exact ⟨rfl, hend⟩
  -- A method type with a block has another outline than one without.
  | ⟨_, _, none, _⟩, ⟨_, _, some ⟨_, _, _⟩, _⟩, _, _, ho, _
  | ⟨_, _, some ⟨_, _, _⟩, _⟩, ⟨_, _, none, _⟩, _, _, ho, _ => nomatch (Signature.mk.inj ho).2.2.1

end

/-- **An expression is its outline and its paths.** -/
theorem eq_of_outline_eq_of_paths_eq {s t : TypeExpr} (ho : s.outline = t.outline)
    (hp : s.paths = t.paths) : s = t :=
  (eq_of_outline_eq_of_append_eq s t ho (congrArg (· ++ []) hp)).1

/-! ## What replacements make of an expression -/

section MapPaths

variable {f g : QualifiedName → QualifiedName} {t u : TypeExpr}

/-- **What a replacement makes of an expression** is the one that has the same
outline and, where its paths stood, what the replacement makes of them. -/
theorem mapPaths_eq_iff :
    t.mapPaths f = u ↔ u.outline = t.outline ∧ t.paths.map f = u.paths := by
  constructor
  · rintro rfl
    exact ⟨outline_mapPaths f t, (paths_mapPaths f t).symm⟩
  · rintro ⟨houtline, hpaths⟩
    refine eq_of_outline_eq_of_paths_eq ?_ ?_
    · rw [outline_mapPaths, houtline]
    · rw [paths_mapPaths, hpaths]

/-- Replacements agree on an expression exactly if they agree on its paths. -/
theorem mapPaths_eq_mapPaths_iff : t.mapPaths f = t.mapPaths g ↔ ∀ p ∈ t.paths, f p = g p := by
  rw [mapPaths_eq_iff, outline_mapPaths, paths_mapPaths, and_iff_right rfl, List.map_inj_left]

/-- A replacement leaves an expression as it is exactly if it leaves each of
its paths. -/
theorem mapPaths_eq_self_iff : t.mapPaths f = t ↔ ∀ p ∈ t.paths, f p = p := by
  have h := List.map_inj_left (l := t.paths) (f := f) (g := id)
  rw [List.map_id] at h
  exact mapPaths_eq_iff.trans ((and_iff_right rfl).trans h)

end MapPaths

end TypeExpr

/-- What holds of types holds of method types, which a single constructor makes
into types without adding a path. -/
theorem Signature.mapPaths_eq_mapPaths_iff {f g : QualifiedName → QualifiedName}
    {method : MethodType} :
    method.mapPaths f = method.mapPaths g ↔ ∀ p ∈ method.paths, f p = g p :=
  (iff_of_eq (TypeExpr.proc.injEq _ _)).symm.trans
    (TypeExpr.mapPaths_eq_mapPaths_iff (t := .proc method))

end ScopedAnnotations
