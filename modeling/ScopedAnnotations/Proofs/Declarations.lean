import ScopedAnnotations.Workbench
import ScopedAnnotations.Proofs.ContextDependence
import ScopedAnnotations.Proofs.Numbering
import ScopedAnnotations.Proofs.Overlay

/-!
# Declarations in texts

Whoever writes at a workbench writes texts, and never sees a name. The last
declaration of a text wins, one would say, and a block sees the declarations
around it. But the index behind the bench compares names, which are given out
while the declarations are made, in an order that depends on everything else that
is done at the bench, and a question may be about a text that has no name until
it is asked. This module proves that one may speak of texts all the same
(`Workbench.work_answers_last`).

The names come in at one point only. Work at the bench interns some texts and
returns a value, and the value is a function of the names that these texts have
(`InternM.Interns`); which they are does not matter as long as the table keeps
them, which it does. What is left is that different texts have different names
(`SymbolTable.HasNames.inj`): declarations in names then say the same as
declarations in texts (`lastContent?_map_annotation`), and what an index makes of
declarations in names is known.
-/

namespace ScopedAnnotations

open SymbolTable

/-! ## Texts that have names -/

/-- **A naming**: these texts have these names in the table. -/
def SymbolTable.HasNames (table : SymbolTable) (ν : String → Name) (texts : List String) : Prop :=
  ∀ text ∈ texts, table.find? text = some (ν text)

/-- The names that texts have in a table, and the name of the empty text for the
others. -/
def SymbolTable.naming (table : SymbolTable) (text : String) : Name :=
  (table.find? text).getD .empty

section Naming

variable {table table' : SymbolTable} {texts earlier later : List String} {ν : String → Name}

theorem SymbolTable.Lists.hasNames (h : table.Lists texts) : table.HasNames table.naming texts := by
  intro text hmem
  obtain ⟨name, hfind⟩ := h.exists_find? hmem
  rw [naming, hfind, Option.getD_some]

namespace SymbolTable.HasNames

theorem mono (h : table.HasNames ν texts) {texts' : List String} (hsub : texts' ⊆ texts) :
    table.HasNames ν texts' :=
  fun text hmem => h text (hsub hmem)

/-- The names that texts have later are those that they had earlier, if they were
there. -/
theorem of_append (hν : table'.HasNames ν texts) (h : table.Lists earlier)
    (h' : table'.Lists (earlier ++ later)) (hsub : texts ⊆ earlier) : table.HasNames ν texts :=
  fun text hmem => h.find?_of_append h' (hsub hmem) (hν text hmem)

/-- **Different texts have different names.** -/
theorem inj (hν : table.HasNames ν texts) (h : table.Inverse) {text text' : String}
    (hmem : text ∈ texts) (hmem' : text' ∈ texts) : ν text = ν text' ↔ text = text' := by
  refine ⟨fun heq => ?_, congrArg ν⟩
  rw [← h.lookUp_of_find? (hν text hmem), heq, h.lookUp_of_find? (hν text' hmem')]

end SymbolTable.HasNames

end Naming

/-! ## Work that interns -/

namespace InternM

variable {α β : Type}

/-- **Work that interns these texts, in this order, and returns a function of
their names.** It goes through as long as there is a number for every text. -/
structure Interns (work : InternM α) (texts : List String) (value : (String → Name) → α) :
    Prop where
  goes : ∀ {table : SymbolTable} {earlier : List String}, table.Lists earlier →
    distinctCount (earlier ++ texts) < UInt32.size → ∃ out, work.run table = .ok out
  leaves : ∀ {table table' : SymbolTable} {earlier : List String} {a : α}, table.Lists earlier →
    work.run table = .ok (a, table') →
    table'.Lists (earlier ++ texts) ∧ ∀ ν, table'.HasNames ν texts → a = value ν

namespace Interns

variable {work : InternM α} {texts texts' : List String} {value : (String → Name) → α}

/-- Work goes through exactly if there is a number for every text. -/
theorem exists_run_iff (h : Interns work texts value) {table : SymbolTable} {earlier : List String}
    (hlists : table.Lists earlier) :
    (∃ out, work.run table = .ok out) ↔ distinctCount (earlier ++ texts) < UInt32.size := by
  refine ⟨fun ⟨⟨a, table'⟩, hrun⟩ => ?_, h.goes hlists⟩
  exact (h.leaves hlists hrun).1.distinctCount_lt

theorem name (text : String) : Interns (InternM.name text) [text] fun ν => ν text where
  goes hlists room := by
    obtain ⟨name, table', hintern, -⟩ := hlists.intern text room
    exact ⟨(name, table'), hintern⟩
  leaves hlists hrun := by
    refine ⟨hlists.of_intern hrun, fun ν hν => ?_⟩
    have hfind := find?_of_intern hrun
    rw [hν text List.mem_cons_self, Option.some_inj] at hfind
    exact hfind.symm

theorem pure (a : α) : Interns (pure a) [] fun _ => a where
  goes _ _ := ⟨_, rfl⟩
  leaves hlists hrun := by
    cases hrun
    exact ⟨by rwa [List.append_nil], fun _ _ => rfl⟩

/-- **One after the other.** -/
theorem bind {next : α → InternM β} {value' : α → (String → Name) → β}
    (h : Interns work texts value) (h' : ∀ a, Interns (next a) texts' (value' a)) :
    Interns (work >>= next) (texts ++ texts') fun ν => value' (value ν) ν where
  goes := by
    intro table earlier hlists room
    rw [← List.append_assoc] at room
    obtain ⟨⟨a, middle⟩, hrun⟩ :=
      h.goes hlists (lt_of_le_of_lt (distinctCount_le_append _ texts') room)
    obtain ⟨out, hrun'⟩ := (h' a).goes (h.leaves hlists hrun).1 room
    exact ⟨out, bind_eq_ok_iff.mpr ⟨(a, middle), hrun, hrun'⟩⟩
  leaves := by
    intro table last earlier b hlists hboth
    obtain ⟨⟨a, middle⟩, hrun, hrun'⟩ := bind_eq_ok_iff.mp hboth
    obtain ⟨hmiddle, ha⟩ := h.leaves hlists hrun
    obtain ⟨hlast, hb⟩ := (h' a).leaves hmiddle hrun'
    rw [← List.append_assoc]
    refine ⟨hlast, fun ν hν => ?_⟩
    -- The names were the same half-way.
    have hmiddleNames : middle.HasNames ν texts :=
      (hν.mono (List.subset_append_left texts texts')).of_append hmiddle hlast
        (List.subset_append_right earlier texts)
    rw [hb ν (hν.mono (List.subset_append_right texts texts')), ha ν hmiddleNames]

theorem map (h : Interns work texts value) (f : α → β) :
    Interns (f <$> work) texts fun ν => f (value ν) := by
  have hbind := h.bind (fun a => Interns.pure (f a))
  rw [List.append_nil] at hbind
  exact hbind

/-- **Item by item.** -/
theorem mapM {ι : Type} {f : ι → InternM α} {texts : ι → List String}
    {value : ι → (String → Name) → α} (h : ∀ i, Interns (f i) (texts i) (value i))
    (is : List ι) : Interns (is.mapM f) (is.flatMap texts) fun ν => is.map (value · ν) := by
  induction is with
  | nil => exact Interns.pure []
  | cons i is ih =>
    rw [List.mapM_cons, List.flatMap_cons]
    exact (h i).bind (fun a => ih.map (a :: ·))

end Interns

end InternM

/-! ## What is written at the bench -/

namespace Declaration

/-- The texts of a declaration, in the order in which they are interned. -/
def texts : Declaration → List String
  | var n t | ivar n t | const n t | method n t => [n, t]
  | block t | breakOut t => [t]
  | dynamic names => names.map Prod.fst

/-- A type, as it is written, in names. -/
def writtenType (ν : String → Name) (text : String) : TypeExpr := .ofPath (.simple (ν text))

/-- **A declaration in names.** -/
def annotation (ν : String → Name) : Declaration → Annotation
  | var n t => .varType (ν n) (writtenType ν t)
  | ivar n t => .ivarType (ν n) (writtenType ν t)
  | const n t => .constType (.simple (ν n)) (writtenType ν t)
  | method n t => .methodType (ν n) (.ofParams [] (writtenType ν t))
  | block t => .blockType (writtenType ν t)
  | breakOut t => .breakType (writtenType ν t)
  | dynamic names => .dynamic (names.map fun entry =>
    if entry.2 then .ofInstance (ν entry.1) else .ofModule (ν entry.1))

end Declaration

namespace Workbench

open InternM Declaration

theorem interns_type (text : String) :
    Interns (type text) [text] fun ν => writtenType ν text :=
  (Interns.name text).map fun n => TypeExpr.ofPath (.simple n)

theorem interns_resolvedType (text : String) :
    Interns (resolvedType text) [moduleName, text] fun ν =>
      .ofPath (.rooted [ν moduleName] (ν text)) :=
  (Interns.name moduleName).bind fun app =>
    (Interns.name text).map fun n => TypeExpr.ofPath (.rooted [app] n)

theorem interns_create (resolver : ResolverId) :
    Interns (create resolver) [moduleName] fun ν =>
      ⟨resolver, ModuleContext.root.enter (ν moduleName)⟩ :=
  (Interns.name moduleName).map fun app => Workbench.mk resolver (ModuleContext.root.enter app)

/-- A name and a type, interned in this order. -/
theorem interns_pair (n t : String) (f : Name → TypeExpr → Annotation) :
    Interns (do let n ← InternM.name n; return f n (← type t)) [n, t] fun ν =>
      f (ν n) (writtenType ν t) :=
  (Interns.name n).bind fun n => (interns_type t).map (f n)

/-- **Declaring interns the texts of the declaration**, and makes of it what it is
in names. -/
theorem interns_declare (d : Declaration) :
    Interns (declare d) d.texts fun ν => d.annotation ν := by
  cases d with
  | var n t => exact interns_pair n t .varType
  | ivar n t => exact interns_pair n t .ivarType
  | const n t => exact interns_pair n t fun n type => .constType (.simple n) type
  | method n t => exact interns_pair n t fun n type => .methodType n (.ofParams [] type)
  | block t => exact (interns_type t).map Annotation.blockType
  | breakOut t => exact (interns_type t).map Annotation.breakType
  | dynamic names =>
    have hentry (entry : String × Bool) : Interns (dynamicName entry.1 entry.2) [entry.1] fun ν =>
        if entry.2 then DynamicName.ofInstance (ν entry.1) else .ofModule (ν entry.1) :=
      (Interns.name entry.1).map fun n =>
        if entry.2 then DynamicName.ofInstance n else .ofModule n
    have hall := (Interns.mapM hentry names).map Annotation.dynamic
    show Interns _ (names.map Prod.fst) _
    rw [List.map_eq_flatMap]
    exact hall

/-- **Something done at the bench.** Whatever it is, it interns. -/
inductive Act where
  /-- A declaration is made, and kept. -/
  | declare (declaration : Declaration)
  /-- A text is interned. -/
  | name (text : String)
  /-- A type is written. -/
  | type (text : String)
  /-- A type is written as it is inside `::App`. -/
  | resolvedType (text : String)
  deriving DecidableEq, Repr

namespace Act

/-- The declaration that is made. -/
def declaration? : Act → Option Declaration
  | declare d => some d
  | _ => none

/-- The texts that are interned, in order. -/
def texts : Act → List String
  | declare d => d.texts
  | name text | type text => [text]
  | resolvedType text => [moduleName, text]

/-- One act. A declaration is kept together with the annotation it came to. -/
def perform : Act → InternM (Option (Declaration × Annotation))
  | declare d => do return some (d, ← Workbench.declare d)
  | name text => do let _ ← InternM.name text; return none
  | type text => do let _ ← Workbench.type text; return none
  | resolvedType text => do let _ ← Workbench.resolvedType text; return none

theorem interns_perform (act : Act) : Interns act.perform act.texts fun ν =>
    act.declaration?.map fun d => (d, d.annotation ν) := by
  cases act with
  | declare d => exact (interns_declare d).map fun a => some (d, a)
  | name text => exact (Interns.name text).map fun _ => none
  | type text => exact (interns_type text).map fun _ => none
  | resolvedType text => exact (interns_resolvedType text).map fun _ => none

end Act

/-- **Work at a new bench**: one act after another, and the declarations that were
made. -/
def work (resolver : ResolverId) (acts : List Act) :
    InternM (Workbench × List (Declaration × Annotation)) := do
  let bench ← create resolver
  let made ← acts.mapM Act.perform
  return (bench, made.reduceOption)

/-- The texts interned in work at a new bench, in order. -/
def workTexts (acts : List Act) : List String := moduleName :: acts.flatMap Act.texts

theorem interns_work (resolver : ResolverId) (acts : List Act) :
    Interns (work resolver acts) (workTexts acts) fun ν =>
      (⟨resolver, ModuleContext.root.enter (ν moduleName)⟩,
        (acts.filterMap Act.declaration?).map fun d => (d, d.annotation ν)) := by
  have hmade (ν : String → Name) :
      (acts.map fun act => act.declaration?.map fun d => (d, d.annotation ν)).reduceOption
        = (acts.filterMap Act.declaration?).map fun d => (d, d.annotation ν) := by
    unfold List.reduceOption
    rw [List.filterMap_map, List.map_filterMap]
    rfl
  simp only [← hmade]
  exact (interns_create resolver).bind fun bench =>
    (Interns.mapM Act.interns_perform acts).map fun made => (bench, made.reduceOption)

end Workbench

/-! ## What is declared of a text -/

/-- **What a declaration may be about.** -/
inductive Topic where
  /-- The local variable of this name. -/
  | var (name : String)
  /-- The instance variable of this name. -/
  | ivar (name : String)
  /-- The constant of this name. -/
  | const (name : String)
  /-- The method of this name. -/
  | method (name : String)
  /-- The block. -/
  | block
  /-- The values that `break` leaves the block with. -/
  | breakOut
  deriving DecidableEq, Repr

/-- The type that a declaration gives to what it is about. -/
def Declaration.type? : Topic → Declaration → Option String
  | .var s, .var n t | .ivar s, .ivar n t | .const s, .const n t | .method s, .method n t =>
    if n = s then some t else none
  | .block, .block t | .breakOut, .breakOut t => some t
  | _, _ => none

/-- **The type that was declared last.** -/
def lastType? (ds : List Declaration) (topic : Topic) : Option String :=
  (ds.filterMap (Declaration.type? topic)).getLast?

namespace Topic

/-- The texts that a topic mentions. -/
def texts : Topic → List String
  | var s | ivar s | const s | method s => [s]
  | block | breakOut => []

/-- The place that a topic is, in names. -/
def place (ν : String → Name) : Topic → Place
  | var s => .ref (.localVar (ν s))
  | ivar s => .ref (.instanceVar (ν s))
  | const s => .ref (.constant (.simple (ν s)))
  | method s => .method (ν s)
  | block => .slot .blockType
  | breakOut => .slot .breakType

/-- What declaring a type puts there. -/
def content (ν : String → Name) : (topic : Topic) → String → (topic.place ν).Content
  | var _, t | ivar _, t | const _, t | block, t | breakOut, t => Declaration.writtenType ν t
  | method _, t => .ofParams [] (Declaration.writtenType ν t)

end Topic

section Last

variable {ν : String → Name} {topic : Topic}

theorem some_if_eq_map {α β : Type} {p q : Prop} [Decidable p] [Decidable q] (h : p ↔ q) (a : α)
    (f : α → β) : (if p then some (f a) else none) = (if q then some a else none).map f := by
  by_cases hq : q
  · rw [if_pos hq, if_pos (h.mpr hq)]
    rfl
  · rw [if_neg hq, if_neg (mt h.mp hq)]
    rfl

/-- **A declaration says the same in names as in texts**, if names distinguish its
texts from those asked about. -/
theorem Declaration.content?_annotation {d : Declaration}
    (hν : ∀ s ∈ topic.texts, ∀ n ∈ d.texts, ν n = ν s ↔ n = s) :
    (d.annotation ν).content? (topic.place ν) = (d.type? topic).map (topic.content ν) := by
  -- Only four topics look at a text, and only in declarations of their own kind.
  cases topic with
  | var s =>
    cases d with
    | var n t =>
      exact some_if_eq_map (hν s List.mem_cons_self n List.mem_cons_self) t (writtenType ν)
    | _ => rfl
  | ivar s =>
    cases d with
    | ivar n t =>
      exact some_if_eq_map (hν s List.mem_cons_self n List.mem_cons_self) t (writtenType ν)
    | _ => rfl
  | const s =>
    cases d with
    | const n t =>
      have hpath : QualifiedName.simple (ν n) = .simple (ν s) ↔ n = s := by
        rw [← hν s List.mem_cons_self n List.mem_cons_self]
        exact ⟨fun h => congrArg QualifiedName.name h, congrArg QualifiedName.simple⟩
      exact some_if_eq_map hpath t (writtenType ν)
    | _ => rfl
  | method s =>
    cases d with
    | method n t =>
      exact some_if_eq_map (hν s List.mem_cons_self n List.mem_cons_self) t
        (Topic.content ν (.method s))
    | _ => rfl
  | block => cases d <;> rfl
  | breakOut => cases d <;> rfl

/-- **The last declaration of a text is the last annotation of its name.** -/
theorem lastContent?_map_annotation {ds : List Declaration}
    (hν : ∀ s ∈ topic.texts, ∀ d ∈ ds, ∀ n ∈ d.texts, ν n = ν s ↔ n = s) :
    lastContent? (ds.map (Declaration.annotation ν)) (topic.place ν)
      = (lastType? ds topic).map (topic.content ν) := by
  unfold lastContent? lastType?
  rw [List.filterMap_map, ← List.getLast?_map, List.map_filterMap]
  refine congrArg List.getLast? (List.filterMap_congr (fun d hd => ?_))
  exact Declaration.content?_annotation (fun s hs => hν s hs d hd)

end Last

/-! ## What an index at the bench answers -/

/-- The type that a declaration gives is one of its texts. -/
theorem Declaration.mem_texts_of_type? {d : Declaration} {topic : Topic} {t : String}
    (h : d.type? topic = some t) : t ∈ d.texts := by
  have hif {n s t' : String} (h : (if n = s then some t' else none) = some t) : t ∈ [n, t'] := by
    obtain ⟨-, ht⟩ := Option.ite_none_right_eq_some.mp h
    rw [Option.some_inj.mp ht]
    exact List.mem_cons_of_mem n List.mem_cons_self
  unfold type? at h
  split at h
  · exact hif h
  · exact hif h
  · exact hif h
  · exact hif h
  · cases h
    exact List.mem_cons_self
  · cases h
    exact List.mem_cons_self
  · cases h

theorem exists_of_lastType? {ds : List Declaration} {topic : Topic} {t : String}
    (h : lastType? ds topic = some t) : ∃ d ∈ ds, t ∈ d.texts := by
  obtain ⟨d, hd, htype⟩ := List.mem_filterMap.mp (List.mem_of_getLast? h)
  exact ⟨d, hd, Declaration.mem_texts_of_type? htype⟩

/-- Whether a topic is one of a block's. -/
def Topic.isBlockScoped : Topic → Bool
  | block | breakOut => true
  | _ => false

/-- **The types declared in a block and around it**: what is not declared in the
block is declared around it, but for the topics of a block. -/
def overlaidType? (outer inner : List Declaration) (topic : Topic) : Option String :=
  if topic.isBlockScoped then lastType? inner topic
  else (lastType? inner topic).or (lastType? outer topic)

/-- **An index holds what is declared of texts**, whichever names they have, and
whichever name the text asked about has got since. -/
structure Index.Declares (index : Index) (texts : List String) (type? : Topic → Option String) :
    Prop where
  content?_eq : ∀ {topic : Topic} {table : SymbolTable} {ν : String → Name},
    table.Lists (texts ++ topic.texts) → table.HasNames ν (texts ++ topic.texts) →
    index.content? (topic.place ν) = (type? topic).map (topic.content ν)
  mem_texts : ∀ {topic : Topic} {t : String}, type? topic = some t → t ∈ texts

namespace Index

section Declares

variable {table : SymbolTable} {texts : List String}

/-- An index of declarations holds what is declared in them. -/
theorem declares_build (hlists : table.Lists texts) (scope : ResolutionScope)
    {made : List (Declaration × Annotation)}
    (hmade : ∀ ν, table.HasNames ν texts →
      ∀ entry ∈ made, entry.2 = Declaration.annotation ν entry.1)
    (htexts : ∀ entry ∈ made, entry.1.texts ⊆ texts) :
    (build (made.map Prod.snd) scope).Declares texts (lastType? (made.map Prod.fst)) where
  content?_eq := by
    intro topic table' ν hlists' hν
    have hearlier : table.HasNames ν texts :=
      (hν.mono (List.subset_append_left _ _)).of_append hlists hlists' (List.Subset.refl texts)
    have hannotations : made.map Prod.snd = (made.map Prod.fst).map (Declaration.annotation ν) := by
      rw [List.map_map]
      exact List.map_congr_left (hmade ν hearlier)
    rw [content?_eq_lastContent?, annotations_build, hannotations]
    refine lastContent?_map_annotation (fun s hs d hd n hn => ?_)
    obtain ⟨entry, hentry, rfl⟩ := List.mem_map.mp hd
    exact hν.inj hlists'.inverse (List.mem_append_left _ (htexts entry hentry hn))
      (List.mem_append_right _ hs)
  mem_texts := by
    intro topic t ht
    obtain ⟨d, hd, hmem⟩ := exists_of_lastType? ht
    obtain ⟨entry, hentry, rfl⟩ := List.mem_map.mp hd
    exact htexts entry hentry hmem

/-- An index of a block holds what is declared in the block and around it. -/
theorem declares_inherited_append {outer inner : Index} {ds es : List Declaration}
    (houter : outer.Declares texts (lastType? ds)) (hinner : inner.Declares texts (lastType? es))
    (scope : ResolutionScope) :
    (build (outer.inherited ++ inner.annotations) scope).Declares texts (overlaidType? ds es) where
  content?_eq := by
    intro topic table' ν hlists' hν
    have hblock : (topic.place ν).isBlockScoped = topic.isBlockScoped := by cases topic <;> rfl
    rw [content?_inherited_append, hblock, hinner.content?_eq hlists' hν,
      houter.content?_eq hlists' hν]
    unfold overlaidType?
    by_cases h : topic.isBlockScoped = true
    · rw [if_pos h, if_pos h]
    · rw [if_neg h, if_neg h, Option.map_or]
  mem_texts := by
    intro topic t ht
    unfold overlaidType? at ht
    by_cases h : topic.isBlockScoped = true
    · rw [if_pos h] at ht
      exact hinner.mem_texts ht
    · rw [if_neg h, Option.or_eq_some_iff] at ht
      exact ht.elim hinner.mem_texts (fun h => houter.mem_texts h.2)

end Declares

end Index

/-- **Questions in texts.** Asked about a text, which then gets a name if it had
none, the index answers with the type declared of the text, as it is inside
`::App`; and that interns nothing more. -/
structure Index.AnswersAs (index : Index) (table : SymbolTable) (type? : Topic → Option String) :
    Prop where
  localVariableType : ∀ s name table', (InternM.name s).run table = .ok (name, table') →
    ((type? (.var s)).mapM Workbench.resolvedType).run table'
      = .ok ((index.localVariableType .anchoring name).run, table')
  instanceVariableType : ∀ s name table', (InternM.name s).run table = .ok (name, table') →
    ((type? (.ivar s)).mapM Workbench.resolvedType).run table'
      = .ok ((index.instanceVariableType .anchoring name).run, table')
  constantType : ∀ s name table', (InternM.name s).run table = .ok (name, table') →
    ((type? (.const s)).mapM Workbench.resolvedType).run table'
      = .ok ((index.constantType .anchoring (.simple name)).run, table')
  /-- A method has no parameters and the declared result. -/
  methodType : ∀ s name table', (InternM.name s).run table = .ok (name, table') →
    ∃ ret, ((type? (.method s)).mapM Workbench.resolvedType).run table' = .ok (ret, table')
      ∧ (index.methodType .anchoring name).run = ret.map (.ofParams [])
  blockType : ((type? .block).mapM Workbench.resolvedType).run table
    = .ok ((index.slotType .anchoring .blockType).run, table)
  breakType : ((type? .breakOut).mapM Workbench.resolvedType).run table
    = .ok ((index.slotType .anchoring .breakType).run, table)

/-- A resolved type of texts that have names interns nothing. -/
theorem Workbench.run_mapM_resolvedType {table : SymbolTable} {app : Name}
    (happ : table.find? moduleName = some app) {type? : Option String} {ν : String → Name}
    (htype : ∀ t ∈ type?, table.find? t = some (ν t)) :
    (type?.mapM resolvedType).run table
      = .ok (type?.map fun t => .ofPath (.rooted [app] (ν t)), table) := by
  cases type? with
  | none => rfl
  | some t =>
    have hname : (InternM.name moduleName).run table = .ok (app, table) := intern_of_find? happ
    have htext : (InternM.name t).run table = .ok (ν t, table) := intern_of_find? (htype t rfl)
    refine bind_eq_ok_iff.mpr ⟨(_, table), bind_eq_ok_iff.mpr ⟨_, hname, ?_⟩, rfl⟩
    exact bind_eq_ok_iff.mpr ⟨_, htext, rfl⟩

namespace Index

variable {index : Index} {table : SymbolTable} {texts : List String}
  {type? : Topic → Option String} {resolver : ResolverId} {app : Name}

theorem Declares.answer?_eq (h : index.Declares texts type?)
    (hscope : index.scope = ⟨resolver, ModuleContext.root.enter app⟩) (topic : Topic)
    (hlists : table.Lists (texts ++ topic.texts))
    (happ : table.find? Workbench.moduleName = some app) :
    ((type? topic).mapM Workbench.resolvedType).run table
        = .ok ((type? topic).map fun t => .ofPath (.rooted [app] (table.naming t)), table)
      ∧ (index.answer? .anchoring (topic.place table.naming)).run
        = (type? topic).map fun t =>
          (⟨resolver, ModuleContext.root.enter app⟩ : ResolutionScope).resolve .anchoring _
            (topic.content table.naming t) := by
  refine ⟨Workbench.run_mapM_resolvedType happ (fun t ht => ?_), ?_⟩
  · exact hlists.hasNames t (List.mem_append_left _ (h.mem_texts ht))
  · rw [answer?_eq_map, h.content?_eq hlists hlists.hasNames, Option.map_map, hscope]
    rfl

/-- An index that holds what is declared of texts answers questions in texts. -/
theorem Declares.answersAs (h : index.Declares texts type?)
    (hscope : index.scope = ⟨resolver, ModuleContext.root.enter app⟩) (hlists : table.Lists texts)
    (happ : table.find? Workbench.moduleName = some app) : index.AnswersAs table type? := by
  -- To ask about a text is to intern it, and the module keeps its name.
  have hask {s : String} {name : Name} {table' : SymbolTable}
      (hname : (InternM.name s).run table = .ok (name, table')) :
      table'.naming s = name ∧ table'.Lists (texts ++ [s])
        ∧ table'.find? Workbench.moduleName = some app := by
    have hlists' := hlists.of_intern hname
    refine ⟨?_, hlists', hlists.find?_append hlists' happ⟩
    rw [naming, find?_of_intern hname, Option.getD_some]
  have hpair {table' : SymbolTable} {answer answer' : Option TypeExpr} (heq : answer = answer') :
      (Except.ok (answer', table') : Except InternError _) = .ok (answer, table') := by rw [heq]
  have hnone : table.Lists (texts ++ []) := by rwa [List.append_nil]
  exact
    { localVariableType := by
        intro s name table' hname
        obtain ⟨rfl, hlists', happ'⟩ := hask hname
        obtain ⟨hrun, hanswer⟩ := h.answer?_eq hscope (.var s) hlists' happ'
        exact hrun.trans (hpair hanswer)
      instanceVariableType := by
        intro s name table' hname
        obtain ⟨rfl, hlists', happ'⟩ := hask hname
        obtain ⟨hrun, hanswer⟩ := h.answer?_eq hscope (.ivar s) hlists' happ'
        exact hrun.trans (hpair hanswer)
      constantType := by
        intro s name table' hname
        obtain ⟨rfl, hlists', happ'⟩ := hask hname
        obtain ⟨hrun, hanswer⟩ := h.answer?_eq hscope (.const s) hlists' happ'
        exact hrun.trans (hpair hanswer)
      methodType := by
        intro s name table' hname
        obtain ⟨rfl, hlists', happ'⟩ := hask hname
        obtain ⟨hrun, hanswer⟩ := h.answer?_eq hscope (.method s) hlists' happ'
        refine ⟨_, hrun, hanswer.trans ?_⟩
        rw [Option.map_map]
        rfl
      blockType := by
        obtain ⟨hrun, hanswer⟩ := h.answer?_eq hscope .block hnone happ
        exact hrun.trans (hpair hanswer)
      breakType := by
        obtain ⟨hrun, hanswer⟩ := h.answer?_eq hscope .breakOut hnone happ
        exact hrun.trans (hpair hanswer) }

end Index

namespace Workbench

/-- What is kept of work at a new bench: the bench is a bench in `::App`, and every
declaration is kept with what it is in names. -/
theorem kept_of_work {resolver : ResolverId} {acts : List Act} {bench : Workbench}
    {made : List (Declaration × Annotation)} {table : SymbolTable}
    (hrun : (work resolver acts).run .empty = .ok ((bench, made), table)) :
    table.Lists (workTexts acts)
      ∧ made.map Prod.fst = acts.filterMap Act.declaration?
      ∧ (∀ entry ∈ made, entry.1.texts ⊆ workTexts acts)
      ∧ ∀ ν, table.HasNames ν (workTexts acts) →
        bench.scope = ⟨resolver, ModuleContext.root.enter (ν moduleName)⟩
          ∧ ∀ entry ∈ made, entry.2 = Declaration.annotation ν entry.1 := by
  obtain ⟨hlists, hvalue⟩ := (interns_work resolver acts).leaves lists_empty hrun
  rw [List.nil_append] at hlists
  have hnames := Prod.mk.inj (hvalue table.naming hlists.hasNames)
  refine ⟨hlists, ?_, fun entry hentry => ?_, fun ν hν => ?_⟩
  · rw [hnames.2, List.map_map]
    exact List.map_id _
  · rw [hnames.2] at hentry
    obtain ⟨d, hd, rfl⟩ := List.mem_map.mp hentry
    obtain ⟨act, hact, hdeclare⟩ := List.mem_filterMap.mp hd
    have htexts : d.texts = act.texts := by
      cases act with
      | declare d' => cases hdeclare; rfl
      | _ => cases hdeclare
    rw [htexts]
    exact fun text htext => List.mem_cons_of_mem _ (List.mem_flatMap.mpr ⟨act, hact, htext⟩)
  · obtain ⟨rfl, rfl⟩ := Prod.mk.inj (hvalue ν hν)
    refine ⟨rfl, fun entry hentry => ?_⟩
    obtain ⟨d, -, rfl⟩ := List.mem_map.mp hentry
    rfl

/-- **The last declaration of a text wins.** Whatever is done at a new bench, it
goes through exactly if there is a number for every text, and then any lists of
the declarations that were made, in whichever order, answer in texts.

An index of one list answers a question about a text, declared or not, with the
type that the list declares of the text last, inside `::App`. An index of a second
list nested in it always exists, and answers with the type that the second list
declares last, or else the first, and of the block and of `break` only with what
the second list declares. To ask goes through exactly if there is a number for the
text asked about. -/
theorem work_answers_last (resolver : ResolverId) (acts : List Act) :
    ((∃ out, (work resolver acts).run .empty = .ok out)
      ↔ distinctCount (workTexts acts) < UInt32.size)
    ∧ ∀ bench made table, (work resolver acts).run .empty = .ok ((bench, made), table) →
      made.map Prod.fst = acts.filterMap Act.declaration?
      ∧ (∀ s, (∃ out, (InternM.name s).run table = .ok out)
        ↔ distinctCount (workTexts acts ++ [s]) < UInt32.size)
      ∧ ∀ first second, first ⊆ made → second ⊆ made →
        let outer := bench.build (first.map Prod.snd)
        let inner := bench.build (second.map Prod.snd)
        outer.AnswersAs table (lastType? (first.map Prod.fst))
        ∧ ∃ merged, outer.merge inner = .ok merged
          ∧ merged.AnswersAs table
            (overlaidType? (first.map Prod.fst) (second.map Prod.fst)) := by
  refine ⟨(interns_work resolver acts).exists_run_iff lists_empty, fun bench made table hrun => ?_⟩
  obtain ⟨hlists, hfst, htexts, hkept⟩ := kept_of_work hrun
  refine ⟨hfst, fun s => (InternM.Interns.name s).exists_run_iff hlists,
    fun first second hfirst hsecond => ?_⟩
  intro outer inner
  -- A list of what was kept is an index of what it declares.
  have hdeclares {part : List (Declaration × Annotation)} (hpart : part ⊆ made) :
      (bench.build (part.map Prod.snd)).Declares (workTexts acts)
        (lastType? (part.map Prod.fst)) :=
    Index.declares_build hlists bench.scope
      (fun ν hν entry hentry => (hkept ν hν).2 entry (hpart hentry))
      (fun entry hentry => htexts entry (hpart hentry))
  have hscope := (hkept table.naming hlists.hasNames).1
  have happ := hlists.hasNames moduleName List.mem_cons_self
  refine ⟨(hdeclares hfirst).answersAs hscope hlists happ, _, Index.merge_eq_ok_iff.mpr ⟨rfl, rfl⟩,
    ?_⟩
  exact (Index.declares_inherited_append (hdeclares hfirst) (hdeclares hsecond)
    bench.scope).answersAs hscope hlists happ

/-- A variable that is declared twice, the second time with a type called like the
module. -/
example :
    (do
      let (bench, made) ← work ⟨0⟩ [.declare (.var "x" "A"), .resolvedType "B",
        .declare (.var "x" "App")]
      let name ← InternM.name "x"
      return (bench.build (made.map Prod.snd)).localVariableType .anchoring name
      : InternM (Option TypeExpr)).run' .empty
    = .ok (some (.ofPath (.rooted [⟨1⟩] ⟨1⟩))) := by rfl

end Workbench

end ScopedAnnotations
