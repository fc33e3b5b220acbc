import ScopedAnnotations.Proofs.LastWins
import ScopedAnnotations.Proofs.Outline

/-!
# What depends on the module around it

The same annotations may be indexed in two modules. With the anchoring
resolver, which look-ups can tell the modules apart? An expression is called
relative if any name in it is, and this module says that the word is exact:
two different modules give a relative expression two different meanings, and
give any other expression the same one (`Index.build_agree_unless_relative`).

Both halves come down to a single path. An absolute path is left alone by
anchoring, wherever that is done. A relative one comes out with the module in
front of it, and modules are known by their names (`ModuleContext.path_inj`),
so two of them never lead to the same path. As anchoring an expression is
anchoring its paths, one relative path, at whatever depth, is enough to keep
the results apart.
-/

namespace ScopedAnnotations

section Anchoring

variable {c c' : ModuleContext}

/-- **Two modules anchor a path alike exactly if it is absolute.** -/
theorem QualifiedName.anchor_eq_anchor_iff (different : c ≠ c') {p : QualifiedName} :
    p.anchor c = p.anchor c' ↔ p.absolute = true := by
  refine ⟨fun h => ?_, fun h => by rw [anchor_of_absolute h, anchor_of_absolute h]⟩
  rcases Bool.eq_false_or_eq_true p.absolute with habsolute | hrelative
  · exact habsolute
  · -- Both results end in the segments of the path, so they begin alike.
    have hsegments := congrArg segments h
    rw [segments_anchor_of_relative hrelative,
      segments_anchor_of_relative hrelative] at hsegments
    exact absurd (ModuleContext.path_inj.mp (List.append_cancel_right hsegments)) different

theorem TypeExpr.anchor_eq_anchor_iff (different : c ≠ c') {type : TypeExpr} :
    type.anchor c = type.anchor c' ↔ type.isRelative = false := by
  refine mapPaths_eq_mapPaths_iff.trans (Iff.trans ?_ isRelative_eq_false_iff.symm)
  exact forall₂_congr (fun _ _ => QualifiedName.anchor_eq_anchor_iff different)

theorem Signature.anchor_eq_anchor_iff (different : c ≠ c') {method : MethodType} :
    method.anchor c = method.anchor c' ↔ method.isRelative = false := by
  refine mapPaths_eq_mapPaths_iff.trans (Iff.trans ?_ isRelative_eq_false_iff.symm)
  exact forall₂_congr (fun _ _ => QualifiedName.anchor_eq_anchor_iff different)

end Anchoring

/-! ## Look-ups in two modules -/

/-- Whether what stands in a place is relative. A module that is implemented is
answered as written, so it never counts as relative. -/
def Place.isRelative : (place : Place) → place.Content → Bool
  | .ref _, type | .slot _, type => type.isRelative
  | .method _, signature => signature.isRelative
  | .implements, _ => false

/-- The resolvers of a checker that knows of nothing but anchoring. -/
def Resolvers.anchoring : Resolvers Id TypeExpr MethodType := fun _ => .anchoring

section Lookups

variable {c c' : ModuleContext} (resolver : ResolverId)

/-- Two modules make the same of a content exactly if it is not relative. -/
theorem ResolutionScope.resolve_anchoring_eq_iff (different : c ≠ c') (place : Place)
    (content : place.Content) :
    (⟨resolver, c⟩ : ResolutionScope).resolve .anchoring place content
        = (⟨resolver, c'⟩ : ResolutionScope).resolve .anchoring place content
      ↔ place.isRelative content = false := by
  cases place with
  | ref r => exact TypeExpr.anchor_eq_anchor_iff different
  | method name => exact Signature.anchor_eq_anchor_iff different
  | slot s => exact TypeExpr.anchor_eq_anchor_iff different
  | implements => exact iff_of_true rfl rfl

namespace Index

/-- **A look-up tells two modules apart exactly if what it finds is
relative.** -/
theorem answer?_anchoring_eq_iff (different : c ≠ c') (as : List Annotation) (place : Place) :
    (build as ⟨resolver, c⟩).answer? .anchoring place
        = (build as ⟨resolver, c'⟩).answer? .anchoring place
      ↔ ∀ content ∈ lastContent? as place, place.isRelative content = false := by
  rw [answer?_eq_map, answer?_eq_map, content?_eq_lastContent?, content?_eq_lastContent?]
  show (lastContent? as place).map _ = (lastContent? as place).map _ ↔ _
  cases lastContent? as place with
  | none => exact iff_of_true rfl nofun
  | some content =>
    refine Option.some_inj.trans
      ((ResolutionScope.resolve_anchoring_eq_iff resolver different place content).trans ?_)
    exact ⟨fun h _ hmem => Option.mem_some_iff.mp hmem ▸ h, fun h => h content rfl⟩

/-- **Two indexes of the same annotations agree on what is not relative**, and
on nothing else: a look-up is answered alike by both exactly if no annotation of
its form is there, or the last one gives an expression that is not relative. -/
structure AgreeUnlessRelative (as : List Annotation) (here there : Index) : Prop where
  localVariableType : ∀ name, ∃ last, IsLast (.varType name) as last
    ∧ (here.localVariableType .anchoring name = there.localVariableType .anchoring name
      ↔ ∀ type ∈ last, type.isRelative = false)
  instanceVariableType : ∀ name, ∃ last, IsLast (.ivarType name) as last
    ∧ (here.instanceVariableType .anchoring name = there.instanceVariableType .anchoring name
      ↔ ∀ type ∈ last, type.isRelative = false)
  constantType : ∀ path, ∃ last, IsLast (.constType path) as last
    ∧ (here.constantType .anchoring path = there.constantType .anchoring path
      ↔ ∀ type ∈ last, type.isRelative = false)
  methodType : ∀ name, ∃ last, IsLast (.methodType name) as last
    ∧ (here.methodType .anchoring name = there.methodType .anchoring name
      ↔ ∀ method ∈ last, method.isRelative = false)
  slotType : ∀ slot : TypeSlot, ∃ last, IsLast slot.annotation as last
    ∧ (here.slotType .anchoring slot = there.slotType .anchoring slot
      ↔ ∀ type ∈ last, type.isRelative = false)

/-- **Being relative is depending on the module.** Index the same annotations
in any two different modules and let the anchoring resolver answer: the two
indexes agree exactly on what is not relative. -/
theorem build_agree_unless_relative (different : c ≠ c') (as : List Annotation) :
    AgreeUnlessRelative as (build as ⟨resolver, c⟩) (build as ⟨resolver, c'⟩) := by
  have hagree := answer?_anchoring_eq_iff resolver different as
  have hlast := isLast_lastContent? as
  exact
    { localVariableType := fun name =>
        ⟨_, hlast (.ref (.localVar name)), hagree (.ref (.localVar name))⟩
      instanceVariableType := fun name =>
        ⟨_, hlast (.ref (.instanceVar name)), hagree (.ref (.instanceVar name))⟩
      constantType := fun path =>
        ⟨_, hlast (.ref (.constant path)), hagree (.ref (.constant path))⟩
      methodType := fun name => ⟨_, hlast (.method name), hagree (.method name)⟩
      slotType := fun slot => ⟨_, hlast (.slot slot), hagree (.slot slot)⟩ }

/-- A variable that is redeclared with a relative name in the block of a proc,
indexed at the top level and in a module. -/
theorem build_agree_unless_relative_block :
    let inBlock : TypeExpr := .proc
      { params := [], block := some ⟨[.ofPath (.simple ⟨7⟩)], .void, true⟩, ret := .nil }
    let as : List Annotation :=
      [.varType ⟨5⟩ .any, .returnType (.ofPath (.rooted [] ⟨6⟩)), .varType ⟨5⟩ inBlock]
    ModuleContext.root ≠ ModuleContext.root.enter ⟨1⟩
      ∧ AgreeUnlessRelative as (build as ⟨⟨0⟩, .root⟩) (build as ⟨⟨0⟩, .enter .root ⟨1⟩⟩) := by
  intro inBlock as
  have different : ModuleContext.root ≠ ModuleContext.root.enter ⟨1⟩ := by decide
  exact ⟨different, build_agree_unless_relative ⟨0⟩ different as⟩

end Index

end Lookups

end ScopedAnnotations
