import ScopedAnnotations.QualifiedName

/-!
# Module contexts

A relative type name means what the module around it makes of it. A *module
context* is that surrounding module: nothing at the top level, otherwise the
absolute path of the innermost module. That the path is absolute is part of
the type, because a context stands for a place and not for a way of writing
one: `Foo` and `::Foo` are different names, but entering either from the top
level leads to the same context.
-/

namespace ScopedAnnotations

/-- The module that relative names are read in. -/
@[ext]
structure ModuleContext where
  /-- The innermost enclosing module, or nothing at the top level. -/
  module? : Option QualifiedName
  /-- A context's module is anchored at the root. -/
  anchored : ∀ m, module? = some m → m.absolute = true
  deriving DecidableEq

namespace ModuleContext

/-- The top level. -/
def root : ModuleContext := ⟨none, by simp⟩

instance : Inhabited ModuleContext := ⟨root⟩

/-- The inside of a module. A relative path is taken from the root. -/
def ofModule (path : QualifiedName) : ModuleContext :=
  ⟨some path.toAbsolute, by rintro m ⟨⟩; rfl⟩

/-- The inside of a module nested directly in this one. -/
def enter (context : ModuleContext) (name : Name) : ModuleContext where
  module? := match context.module? with
    | some outer => some (outer.child name)
    | none => some (.rooted [] name)
  anchored := by
    intro m h
    cases hc : context.module? with
    | none => rw [hc] at h; cases h; rfl
    | some outer => rw [hc] at h; cases h; exact context.anchored outer hc

/-- Whether this is the top level. -/
def isRoot (context : ModuleContext) : Bool := context.module?.isNone

/-- The names of the enclosing modules, outermost first. -/
def path (context : ModuleContext) : List Name :=
  match context.module? with
  | some m => m.segments
  | none => []

@[simp]
theorem path_root : root.path = [] := rfl

@[simp]
theorem path_ofModule (q : QualifiedName) : (ofModule q).path = q.segments := rfl

@[simp]
theorem path_enter (context : ModuleContext) (name : Name) :
    (context.enter name).path = context.path ++ [name] := by
  obtain ⟨_ | outer, h⟩ := context <;> rfl

/-- A context is known by the names of the modules around it. -/
theorem path_inj {c c' : ModuleContext} : c.path = c'.path ↔ c = c' := by
  refine ⟨fun h => ?_, congrArg path⟩
  obtain ⟨_ | m, hm⟩ := c <;> obtain ⟨_ | m', hm'⟩ := c'
  · rfl
  · exact absurd h.symm m'.segments_ne_nil
  · exact absurd h m.segments_ne_nil
  · have habs : m.absolute = m'.absolute := (hm m rfl).trans (hm' m' rfl).symm
    exact ModuleContext.ext (congrArg some (QualifiedName.ext h habs))

end ModuleContext

end ScopedAnnotations
