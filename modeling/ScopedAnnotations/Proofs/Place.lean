import ScopedAnnotations.Index.Query

/-!
# Places

The classified form of a list of annotations has a field for every kind, and a
proof about it would have to be given once for every field. What the fields
have in common is that each is a family of *places*, where one answer may
stand: a place is a variable, a method, a slot of the scope as a whole, or the
module being implemented. This module reads the fields as places.

Three readings are tied together. An annotation has a content at the one place
it is about and none anywhere else (`Annotation.content?`). Filing an
annotation puts its content in that place and leaves all others alone
(`Classified.content?_file`), which is the only statement below that looks at
every kind. And a list of annotations leaves in each place the last content
that any of them has there (`Classified.content?_fileAll`).

Dynamic declarations are not a place, because they have no one answer. They
pile up, and are read as the list of those that were filed
(`Classified.dynamics_fileAll`).
-/

namespace ScopedAnnotations

/-- **Where one answer may stand.** -/
inductive Place where
  /-- What is said of a variable or a constant. -/
  | ref (ref : VariableRef)
  /-- What is said of a method. -/
  | method (name : Name)
  /-- What is said of the scope as a whole, in one of six respects. -/
  | slot (slot : TypeSlot)
  /-- The module being implemented. -/
  | implements
  deriving DecidableEq

/-- The annotation that puts a type in a slot. -/
def TypeSlot.annotation : TypeSlot → TypeExpr → Annotation
  | blockType => .blockType
  | breakType => .breakType
  | returnType => .returnType
  | selfType => .selfType
  | instanceType => .instanceType
  | moduleType => .moduleType

namespace Place

/-- What an answer is made of: a type, except that a method has a method type
and a module is named by its path. -/
abbrev Content : Place → Type
  | ref _ | slot _ => TypeExpr
  | method _ => MethodType
  | implements => QualifiedName

/-- The annotation that puts a content in a place. -/
def annotation : (place : Place) → place.Content → Annotation
  | ref (.localVar name) => .varType name
  | ref (.instanceVar name) => .ivarType name
  | ref (.constant path) => .constType path
  | method name => .methodType name
  | slot s => s.annotation
  | implements => .implements

/-- The kind of the annotations that are about a place. -/
def kind : Place → Kind
  | ref (.localVar _) => .varType
  | ref (.instanceVar _) => .ivarType
  | ref (.constant _) => .constType
  | method _ => .methodType
  | slot .blockType => .blockType
  | slot .breakType => .breakType
  | slot .returnType => .returnType
  | slot .selfType => .selfType
  | slot .instanceType => .instanceType
  | slot .moduleType => .moduleType
  | implements => .implements

theorem kind_annotation (place : Place) (content : place.Content) :
    (place.annotation content).kind = place.kind := by
  rcases place with (_ | _ | _) | _ | (_ | _ | _ | _ | _ | _) | _ <;> rfl

end Place

/-- **What an annotation says at a place**, if it is about that place. -/
def Annotation.content? (a : Annotation) : (place : Place) → Option place.Content
  | .ref (.localVar name) =>
    match a with
    | .varType n type => if n = name then some type else none
    | _ => none
  | .ref (.instanceVar name) =>
    match a with
    | .ivarType n type => if n = name then some type else none
    | _ => none
  | .ref (.constant path) =>
    match a with
    | .constType p type => if p = path then some type else none
    | _ => none
  | .method name =>
    match a with
    | .methodType n type => if n = name then some type else none
    | _ => none
  | .slot .blockType => match a with | .blockType type => some type | _ => none
  | .slot .breakType => match a with | .breakType type => some type | _ => none
  | .slot .returnType => match a with | .returnType type => some type | _ => none
  | .slot .selfType => match a with | .selfType type => some type | _ => none
  | .slot .instanceType => match a with | .instanceType type => some type | _ => none
  | .slot .moduleType => match a with | .moduleType type => some type | _ => none
  | .implements => match a with | .implements path => some path | _ => none

/-- **The place an annotation is about**: its kind, together with its key if
annotations of the kind have one. Dynamic declarations are about no place. -/
def Annotation.place? : Annotation → Option Place
  | .varType name _ => some (.ref (.localVar name))
  | .ivarType name _ => some (.ref (.instanceVar name))
  | .constType path _ => some (.ref (.constant path))
  | .methodType name _ => some (.method name)
  | .blockType _ => some (.slot .blockType)
  | .breakType _ => some (.slot .breakType)
  | .returnType _ => some (.slot .returnType)
  | .selfType _ => some (.slot .selfType)
  | .instanceType _ => some (.slot .instanceType)
  | .moduleType _ => some (.slot .moduleType)
  | .implements _ => some .implements
  | .dynamic _ => none

/-- The methods that a dynamic declaration lists. -/
def Annotation.dynamicNames? : Annotation → Option (List DynamicName)
  | .dynamic names => some names
  | _ => none

/-- What is filed in a place. -/
def Classified.content? (classified : Classified) : (place : Place) → Option place.Content
  | .ref (.localVar name) => classified.varTypes[name]?
  | .ref (.instanceVar name) => classified.ivarTypes[name]?
  | .ref (.constant path) => classified.constTypes[path]?
  | .method name => classified.methodTypes[name]?
  | .slot s => classified.slot s
  | .implements => classified.implements

/-- What an index holds in a place, as written. -/
def Index.content? (index : Index) : (place : Place) → Option place.Content
  | .ref r => index.variableExpr r
  | .method name => index.methodExpr name
  | .slot s => index.slotExpr s
  | .implements => index.implementedModule

/-- The last thing that a list of annotations says at a place. -/
def lastContent? (as : List Annotation) (place : Place) : Option place.Content :=
  (as.filterMap fun a => a.content? place).getLast?

/-! ## What an annotation says -/

namespace Annotation

/-- **An annotation says something at the place it is about and nowhere
else**: having a content at a place is being the annotation that puts it
there. -/
theorem content?_eq_some_iff {a : Annotation} {place : Place} {content : place.Content} :
    a.content? place = some content ↔ a = place.annotation content := by
  rcases place with (_ | _ | _) | _ | (_ | _ | _ | _ | _ | _) | _ <;> cases a <;>
    simp [content?, Place.annotation, TypeSlot.annotation]

theorem content?_annotation (place : Place) (content : place.Content) :
    (place.annotation content).content? place = some content :=
  content?_eq_some_iff.mpr rfl

/-- Saying nothing at a place is being none of the annotations that put
something there. -/
theorem content?_eq_none_iff {a : Annotation} {place : Place} :
    a.content? place = none ↔ ∀ content, a ≠ place.annotation content := by
  rw [Option.eq_none_iff_forall_ne_some]
  exact forall_congr' (fun _ => not_congr content?_eq_some_iff)

/-- The annotations about a place are those that put something there. -/
theorem place?_eq_some_iff {a : Annotation} {place : Place} :
    a.place? = some place ↔ ∃ content, a = place.annotation content := by
  constructor
  · intro h
    cases a <;> cases h <;> exact ⟨_, rfl⟩
  · rintro ⟨content, rfl⟩
    rcases place with (_ | _ | _) | _ | (_ | _ | _ | _ | _ | _) | _ <;> rfl

/-- An annotation says something exactly at the place it is about. -/
theorem content?_eq_none_iff_place? {a : Annotation} {place : Place} :
    a.content? place = none ↔ a.place? ≠ some place := by
  rw [content?_eq_none_iff, Ne, place?_eq_some_iff, not_exists]

/-- The annotations about no place are the dynamic declarations. -/
theorem place?_eq_none_iff {a : Annotation} : a.place? = none ↔ ∃ names, a = .dynamic names := by
  cases a with
  | dynamic names => exact iff_of_true rfl ⟨names, rfl⟩
  | _ => exact iff_of_false nofun (fun ⟨_, h⟩ => by cases h)

theorem dynamicNames?_eq_none_iff {a : Annotation} : a.dynamicNames? = none ↔ a.place? ≠ none := by
  cases a with
  | dynamic names => exact iff_of_false nofun (fun h => h rfl)
  | _ => exact iff_of_true rfl nofun

end Annotation

/-! ## Filing -/

namespace Classified

/-- Looking a key up after an insertion finds what was inserted if it is the
key, and what was there otherwise. -/
theorem getElem?_insert_eq_or {κ ν : Type} [Ord κ] [Std.TransOrd κ] [Std.LawfulEqOrd κ]
    [DecidableEq κ] (map : Std.ExtTreeMap κ ν) (key key' : κ) (value : ν) :
    (map.insert key value)[key']? = (if key = key' then some value else none).or map[key']? := by
  rw [Std.ExtTreeMap.getElem?_insert]
  by_cases h : key = key'
  · rw [if_pos h, if_pos (Std.compare_eq_iff_eq.mpr h)]
    rfl
  · rw [if_neg h, if_neg (fun hc => h (Std.compare_eq_iff_eq.mp hc))]
    rfl

/-- **Filing writes one place.** What is in a place after an annotation was
filed is what the annotation says there, and what was there before if it says
nothing. -/
theorem content?_file (classified : Classified) (a : Annotation) (place : Place) :
    (classified.file a).content? place
      = (a.content? place).or (classified.content? place) := by
  -- Only a map looks at a key; every other place is a field that is either
  -- overwritten or untouched.
  cases place with
  | ref r =>
    cases r with
    | localVar name =>
      cases a with
      | varType n type => exact getElem?_insert_eq_or classified.varTypes n name type
      | _ => rfl
    | instanceVar name =>
      cases a with
      | ivarType n type => exact getElem?_insert_eq_or classified.ivarTypes n name type
      | _ => rfl
    | constant path =>
      cases a with
      | constType p type => exact getElem?_insert_eq_or classified.constTypes p path type
      | _ => rfl
  | method name =>
    cases a with
    | methodType n type => exact getElem?_insert_eq_or classified.methodTypes n name type
    | _ => rfl
  | slot s => cases s <;> cases a <;> rfl
  | implements => cases a <;> rfl

@[simp]
theorem content?_empty (place : Place) : empty.content? place = none := by
  cases place with
  | ref r => cases r <;> exact Std.ExtTreeMap.getElem?_empty
  | method name => exact Std.ExtTreeMap.getElem?_empty
  | slot s => cases s <;> rfl
  | implements => rfl

theorem dynamics_file (classified : Classified) (a : Annotation) :
    (classified.file a).dynamics.toList
      = classified.dynamics.toList ++ a.dynamicNames?.toList := by
  cases a with
  | dynamic names => exact Array.toList_push
  | _ => exact (List.append_nil _).symm

end Classified

/-! ## Filing a list -/

section LastContent

variable {as bs : List Annotation} {place : Place}

/-- Of two lists one after the other, the second has the last word wherever it
says anything. -/
theorem lastContent?_append (as bs : List Annotation) (place : Place) :
    lastContent? (as ++ bs) place = (lastContent? bs place).or (lastContent? as place) := by
  unfold lastContent?
  rw [List.filterMap_append, List.getLast?_append]

theorem lastContent?_singleton (a : Annotation) (place : Place) :
    lastContent? [a] place = a.content? place := by
  unfold lastContent?
  rw [List.filterMap_cons]
  cases a.content? place <;> rfl

theorem lastContent?_cons (a : Annotation) (as : List Annotation) (place : Place) :
    lastContent? (a :: as) place = (lastContent? as place).or (a.content? place) := by
  rw [← List.singleton_append, lastContent?_append, lastContent?_singleton]

/-- A list says nothing at a place exactly when it lacks every annotation that
would. -/
theorem lastContent?_eq_none_iff :
    lastContent? as place = none ↔ ∀ content, place.annotation content ∉ as := by
  unfold lastContent?
  rw [List.getLast?_eq_none_iff, List.filterMap_eq_nil_iff]
  constructor
  · intro h content hmem
    have hc := Annotation.content?_annotation place content
    rw [h _ hmem] at hc
    cases hc
  · intro h a ha
    refine Annotation.content?_eq_none_iff.mpr ?_
    rintro content rfl
    exact h content ha

/-- **The last thing said at a place** is what is said there by an annotation
that no annotation about the place comes after. -/
theorem exists_of_lastContent?_eq_some {content : place.Content}
    (h : lastContent? as place = some content) :
    ∃ before after, as = before ++ place.annotation content :: after
      ∧ ∀ other, place.annotation other ∉ after := by
  induction as with
  | nil => cases h
  | cons a as ih =>
    rw [lastContent?_cons, Option.or_eq_some_iff] at h
    rcases h with h | ⟨hlater, hhere⟩
    · obtain ⟨before, after, rfl, hafter⟩ := ih h
      exact ⟨a :: before, after, rfl, hafter⟩
    · obtain rfl := Annotation.content?_eq_some_iff.mp hhere
      exact ⟨[], as, rfl, lastContent?_eq_none_iff.mp hlater⟩

end LastContent

namespace Classified

/-- **The last annotation wins**, in every place at once: after filing a list,
a place holds the last thing the list says there, and what it held before if
the list says nothing. -/
theorem content?_fileAll (classified : Classified) (as : List Annotation) (place : Place) :
    (classified.fileAll as).content? place
      = (lastContent? as place).or (classified.content? place) := by
  induction as generalizing classified with
  | nil => rfl
  | cons a as ih =>
    rw [fileAll_cons, ih, content?_file, ← Option.or_assoc, lastContent?_cons]

/-- Dynamic declarations pile up in the order they are filed. -/
theorem dynamics_fileAll (classified : Classified) (as : List Annotation) :
    (classified.fileAll as).dynamics.toList
      = classified.dynamics.toList ++ as.filterMap Annotation.dynamicNames? := by
  induction as generalizing classified with
  | nil => exact (List.append_nil _).symm
  | cons a as ih =>
    rw [fileAll_cons, ih, dynamics_file, List.append_assoc]
    refine congrArg (classified.dynamics.toList ++ ·) ?_
    cases h : a.dynamicNames? with
    | none => rw [List.filterMap_cons_none h]; rfl
    | some names => rw [List.filterMap_cons_some h]; rfl

theorem content?_ofList (as : List Annotation) (place : Place) :
    (ofList as).content? place = lastContent? as place := by
  rw [ofList, content?_fileAll, content?_empty, Option.or_none]

theorem dynamics_ofList (as : List Annotation) :
    (ofList as).dynamics.toList = as.filterMap Annotation.dynamicNames? :=
  dynamics_fileAll empty as

end Classified

/-! ## What an index holds -/

namespace Index

/-- An index reads its places off its classified form. -/
theorem content?_eq_classified (index : Index) (place : Place) :
    index.content? place = index.classified.content? place := by
  rcases place with (_ | _ | _) | _ | _ | _ <;> rfl

/-- **An index holds the last thing its annotations say**, in every place. -/
theorem content?_eq_lastContent? (index : Index) (place : Place) :
    index.content? place = lastContent? index.annotations place := by
  rw [content?_eq_classified, index.classified_eq, Classified.content?_ofList]

/-- The dynamic declarations of an index are those among its annotations. -/
theorem dynamicDeclarations_eq (index : Index) :
    index.dynamicDeclarations = index.annotations.filterMap Annotation.dynamicNames? := by
  unfold dynamicDeclarations
  rw [index.classified_eq, Classified.dynamics_ofList]

end Index

end ScopedAnnotations
