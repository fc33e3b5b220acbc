import ScopedAnnotations.Proofs.Anchored
import ScopedAnnotations.Resolver.Rendering

/-!
# One canonical form

Two resolvers say what a relative name stands for in a module, and they go
about it in different ways. Anchoring puts the names of the module in front of
those of the path and gives back an expression. Rendering gives back a text,
and makes it by writing the module, a separator and the path one after the
other. This module says that they mean the same: to render an expression where
it stands is to anchor it there first, and then to render what comes out
anywhere at all (`Resolver.rendering_anchoring`).

There is one proviso. Rendering does not look into tuples, unions and procs,
and shows them as they are written, whereas anchoring looks everywhere. So the
two agree as long as rendering stops only where there is nothing relative left
to find. What it looks at on its way there is `TypeExpr.Reaches`.
-/

namespace ScopedAnnotations

variable (lookUp : Name → String) (c c' : ModuleContext)

/-! ## Paths -/

namespace QualifiedName

/-- A path written from the root begins with a separator. -/
theorem display_of_absolute {lookUp : Name → String} {p : QualifiedName}
    (h : p.absolute = true) :
    p.display lookUp = "::" ++ "::".intercalate (p.segments.map lookUp) := by
  rw [display, if_pos h]

theorem display_of_relative {lookUp : Name → String} {p : QualifiedName}
    (h : p.absolute = false) :
    p.display lookUp = "::".intercalate (p.segments.map lookUp) := by
  rw [display, if_neg (by rw [h]; exact Bool.false_ne_true), String.empty_append]

/-- **Writing a path from the root is writing the path that it is anchored
to.** -/
theorem display_anchor (p : QualifiedName) :
    (p.anchor c).display lookUp = p.displayIn lookUp c := by
  rcases Bool.eq_false_or_eq_true p.absolute with habs | hrel
  · rw [anchor_of_absolute habs, displayIn, if_pos habs]
  · rw [display_of_absolute (absolute_anchor c p), segments_anchor_of_relative hrel, displayIn,
      if_neg (by rw [hrel]; exact Bool.false_ne_true), display_of_relative hrel]
    obtain ⟨_ | m, hm⟩ := c
    · rfl
    · -- One text for all the segments, or one for each half and a separator between.
      show "::" ++ "::".intercalate ((m.segments ++ p.segments).map lookUp)
        = m.display lookUp ++ "::" ++ _
      rw [display_of_absolute (hm m rfl), List.map_append, String.intercalate_append_of_ne_nil
        (mt List.map_eq_nil_iff.mp m.segments_ne_nil)
        (mt List.map_eq_nil_iff.mp p.segments_ne_nil), String.append_assoc, String.append_assoc,
        String.append_assoc]

/-- An anchored path is written alike wherever that is done. -/
theorem displayIn_anchor (p : QualifiedName) :
    (p.anchor c).displayIn lookUp c' = p.displayIn lookUp c := by
  rw [← display_anchor, ← display_anchor, anchor_of_absolute (absolute_anchor c p)]

end QualifiedName

/-! ## Types -/

namespace TypeExpr

/-- **What rendering looks at**: an expression, what it looks at in its type
arguments, and what it looks at in what is optional. -/
inductive Reaches : TypeExpr → TypeExpr → Prop where
  /-- It looks at the expression itself. -/
  | self (t : TypeExpr) : Reaches t t
  /-- It goes on to the type arguments of a named type. -/
  | arg {path : QualifiedName} {args : List TypeExpr} {t node : TypeExpr} (mem : t ∈ args)
    (reaches : Reaches t node) : Reaches (named path args) node
  /-- It goes on to what is optional. -/
  | optional {t node : TypeExpr} (reaches : Reaches t node) : Reaches (optional t) node

/-- Whether an expression is shown as a term even though there may be names in
it. -/
def isCompound : TypeExpr → Bool
  | tuple _ | union _ | proc _ => true
  | _ => false

/-- **Rendering resolves all of an expression**: where it looks at a tuple, a
union or a proc, and stops, there is nothing relative inside. -/
def RenderedInFull (t : TypeExpr) : Prop :=
  ∀ node, t.Reaches node → node.isCompound = true → node.isRelative = false

theorem renderedInFull_named {path : QualifiedName} {args : List TypeExpr} :
    (named path args).RenderedInFull ↔ ∀ t ∈ args, t.RenderedInFull := by
  refine ⟨fun h t mem node hnode => h node (.arg mem hnode), fun h node hnode hcompound => ?_⟩
  cases hnode with
  | self => exact absurd hcompound Bool.false_ne_true
  | arg mem hnode => exact h _ mem node hnode hcompound

theorem renderedInFull_optional {t : TypeExpr} :
    (optional t).RenderedInFull ↔ t.RenderedInFull := by
  refine ⟨fun h node hnode => h node (.optional hnode), fun h node hnode hcompound => ?_⟩
  cases hnode with
  | self => exact absurd hcompound Bool.false_ne_true
  | optional hnode => exact h node hnode hcompound

/-- Where rendering stops it does not ask for the module, and anchoring has
nothing to do. -/
theorem RenderedInFull.rendered_compound {t : TypeExpr} (h : t.RenderedInFull)
    (hcompound : t.isCompound = true)
    (hshown : ∀ context, t.rendered lookUp context = describe t) :
    (t.anchor c).rendered lookUp c' = t.rendered lookUp c := by
  rw [anchor_eq_self_iff.mpr (h t (.self t) hcompound), hshown, hshown]

-- By recursion on the expression, along the nodes that rendering looks at.
mutual

/-- **Rendering in a module is rendering what the module anchors**, as long as
all of the expression is rendered. -/
theorem rendered_anchor :
    ∀ t : TypeExpr, t.RenderedInFull → (t.anchor c).rendered lookUp c' = t.rendered lookUp c
  | any, _ | void, _ | nil, _ | bool, _ | selfType, _ | instanceType, _ | classType, _
  | var _, _ => rfl
  | named path [], _ => QualifiedName.displayIn_anchor lookUp c c' path
  | named path (arg :: args), h => by
    have hall := renderedInFull_named.mp h
    have harg := rendered_anchor arg (hall arg List.mem_cons_self)
    have hargs := renderedAll_anchor args (fun t ht => hall t (List.mem_cons_of_mem arg ht))
    show (path.anchor c).displayIn lookUp c' ++ "["
        ++ ", ".intercalate ((arg.anchor c).rendered lookUp c'
          :: renderedAll lookUp c' (mapPathsAll (QualifiedName.anchor c) args)) ++ "]" = _
    rw [QualifiedName.displayIn_anchor, harg, hargs]
    rfl
  | optional inner, h => congrArg (· ++ "?") (rendered_anchor inner (renderedInFull_optional.mp h))
  | tuple _, h => h.rendered_compound lookUp c c' rfl (fun _ => rfl)
  | union _, h => h.rendered_compound lookUp c c' rfl (fun _ => rfl)
  | proc _, h => h.rendered_compound lookUp c c' rfl (fun _ => rfl)

theorem renderedAll_anchor :
    ∀ ts : List TypeExpr, (∀ t ∈ ts, t.RenderedInFull) →
      renderedAll lookUp c' (mapPathsAll (QualifiedName.anchor c) ts) = renderedAll lookUp c ts
  | [], _ => rfl
  | t :: ts, h => by
    have ht := rendered_anchor t (h t List.mem_cons_self)
    have hts := renderedAll_anchor ts (fun u hu => h u (List.mem_cons_of_mem t hu))
    show (t.anchor c).rendered lookUp c' :: _ = _
    rw [ht, hts]
    rfl

end

end TypeExpr

/-! ## Methods -/

namespace Signature

theorem params_mapPaths (f : QualifiedName → QualifiedName) (method : MethodType) :
    (method.mapPaths f).params = TypeExpr.mapPathsAll f method.params := by
  obtain ⟨_, _, _ | _, _⟩ := method <;> rfl

theorem ret_mapPaths (f : QualifiedName → QualifiedName) (method : MethodType) :
    (method.mapPaths f).ret = method.ret.mapPaths f := by
  obtain ⟨_, _, _ | _, _⟩ := method <;> rfl

/-- A method is rendered by its parameters and its result, and its block has no
say in it. -/
theorem rendered_anchor (method : MethodType) (params : ∀ t ∈ method.params, t.RenderedInFull)
    (ret : method.ret.RenderedInFull) :
    (method.anchor c).rendered lookUp c' = method.rendered lookUp c := by
  have hparams := TypeExpr.renderedAll_anchor lookUp c c' method.params params
  have hret := TypeExpr.rendered_anchor lookUp c c' method.ret ret
  unfold rendered anchor
  rw [params_mapPaths, ret_mapPaths, ← TypeExpr.renderedAll_eq_map, hparams,
    TypeExpr.renderedAll_eq_map]
  exact congrArg (_ ++ ·) hret

end Signature

namespace Resolver

/-- **The two resolvers agree.** Whatever the symbol table, rendering a type in
a module gives the text that rendering gives, in any module, to what anchoring
makes of the type in the first one – provided that rendering stops only at
tuples, unions and procs with nothing relative inside. The same holds of a
method type whose parameters and result are all such types. -/
theorem rendering_anchoring (table : SymbolTable) (c c' : ModuleContext) :
    (∀ type : TypeExpr, type.RenderedInFull →
      (rendering table.lookUp).resolveType type c
        = (rendering table.lookUp).resolveType (anchoring.resolveType type c).run c')
    ∧ (∀ method : MethodType, (∀ type ∈ method.params, type.RenderedInFull) →
      method.ret.RenderedInFull →
      (rendering table.lookUp).resolveMethod method c
        = (rendering table.lookUp).resolveMethod (anchoring.resolveMethod method c).run c') :=
  ⟨fun type h => (TypeExpr.rendered_anchor table.lookUp c c' type h).symm,
    fun method params ret => (Signature.rendered_anchor table.lookUp c c' method params ret).symm⟩

/-- A generic type in a module, with an absolute name in a tuple and a relative
one beside it, and a method that takes it. -/
theorem rendering_anchoring_generic :
    let table := ((SymbolTable.empty.push "App" ⟨1⟩).push "Array" ⟨2⟩).push "Item" ⟨3⟩
    let app := ModuleContext.root.enter ⟨1⟩
    let type : TypeExpr := .named (.simple ⟨2⟩)
      [.optional (.tuple [.ofPath (.rooted [] ⟨3⟩)]), .ofPath (.simple ⟨3⟩)]
    let method : MethodType :=
      { params := [type], block := some ⟨[.ofPath (.simple ⟨3⟩)], .any, false⟩, ret := .nil }
    type.RenderedInFull
      ∧ (rendering table.lookUp).resolveType type app
        = (rendering table.lookUp).resolveType (anchoring.resolveType type app).run .root
      ∧ (∀ t ∈ method.params, t.RenderedInFull) ∧ method.ret.RenderedInFull
      ∧ (rendering table.lookUp).resolveMethod method app
        = (rendering table.lookUp).resolveMethod
          (anchoring.resolveMethod method app).run .root := by
  intro table app type method
  obtain ⟨htype, hmethod⟩ := rendering_anchoring table app .root
  have htuple : (TypeExpr.tuple [.ofPath (.rooted [] ⟨3⟩)]).RenderedInFull := by
    intro node hnode _
    cases hnode
    rfl
  have hnil : TypeExpr.nil.RenderedInFull := by
    intro node hnode hcompound
    cases hnode
    cases hcompound
  have hpath : (TypeExpr.ofPath (.simple ⟨3⟩)).RenderedInFull :=
    TypeExpr.renderedInFull_named.mpr nofun
  have hfull : type.RenderedInFull := TypeExpr.renderedInFull_named.mpr
    (List.forall_mem_cons.mpr ⟨TypeExpr.renderedInFull_optional.mpr htuple,
      List.forall_mem_singleton.mpr hpath⟩)
  have hparams : ∀ t ∈ method.params, t.RenderedInFull := List.forall_mem_singleton.mpr hfull
  exact ⟨hfull, htype type hfull, hparams, hnil, hmethod method hparams hnil⟩

end Resolver

end ScopedAnnotations
