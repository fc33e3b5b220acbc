import ScopedAnnotations.Index.Query
import ScopedAnnotations.Index.Merge

/-!
# Sessions

A checker works its way through a body of code: it opens a scope, indexes the
annotations there, asks about them, derives the index of a nested block, asks
again. A *session* is such a run. It keeps the scopes and the indexes made so
far under names chosen by the caller – using a name again forgets what it
stood for – and counts the questions put to each resolver.

A command that is refused, because two scopes do not agree, leaves the session
as it was and says so in its reply. A command that mentions a scope or an
index nobody made has no reply, and ends the run.
-/

namespace ScopedAnnotations

/-- Something an index can be asked. -/
inductive Query where
  | variableType (ref : VariableRef)
  | methodType (name : Name)
  | slotType (slot : TypeSlot)
  | localVariableTypes
  | instanceVariableTypes
  | constantTypes
  /-- The type written for a variable or a constant. -/
  | variableExpr (ref : VariableRef)
  /-- The type written for a method. -/
  | methodExpr (name : Name)
  /-- The type written for the scope as a whole. -/
  | slotExpr (slot : TypeSlot)
  | implementedModule
  | dynamicDeclarations
  | dynamicInstanceMethods
  | dynamicModuleMethods
  | contains (a : Annotation)
  /-- Whether a predicate holds of some annotation. The predicate is also told
  how many annotations have been tried, this one included. -/
  | any (p : Nat → Annotation → Bool)
  | size
  | isEmpty
  | annotations
  | kinds
  | context
  /-- Whether the index's scope goes by this resolver. -/
  | resolverIs (resolver : ResolverId)
  | describe

/-- What a command is answered with, if types stand for values of `τ` and
methods for values of `μ`. -/
inductive Reply (τ μ : Type) where
  /-- What a type stands for, if there is one. -/
  | type (answer : Option τ)
  /-- What a method stands for, if there is one. -/
  | method (answer : Option μ)
  | variableTypes (answers : Std.ExtTreeMap Name τ)
  | constantTypes (answers : Std.ExtTreeMap QualifiedName τ)
  /-- A type as written, if there is one. -/
  | typeExpr (type : Option TypeExpr)
  /-- A method type as written, if there is one. -/
  | methodExpr (method : Option MethodType)
  | module (path : Option QualifiedName)
  | declarations (declarations : List (List DynamicName))
  | names (names : List Name)
  | truth (truth : Bool)
  /-- Whether a predicate held of something, and how many things were tried. -/
  | found (found : Bool) (tried : Nat)
  | count (count : Nat)
  | annotations (annotations : List Annotation)
  | kinds (kinds : List Kind)
  | context (context : ModuleContext)
  | text (text : String)
  /-- An index of so many annotations was made. -/
  | indexed (size : Nat)
  /-- Two scopes are the same. -/
  | compatible
  /-- Two scopes are not the same, and nothing was done. -/
  | refused (error : IndexError)

/-- Try a predicate on the annotations of an index in order, until it holds,
and say how often it was tried. -/
def Index.anyCounted (index : Index) (p : Nat → Annotation → Bool) : Bool × Nat :=
  StateT.run (m := Id) (index.anyM fun a => do
    let tried := (← get) + 1
    set tried
    return p tried a) 0

namespace Query

/-- The answer of an index to a query. Only the first six queries put
anything to a resolver. -/
def answer {m : Type → Type} [Monad m] {τ μ : Type} (R : Resolvers m τ μ) (index : Index) :
    Query → m (Reply τ μ)
  | variableType ref => .type <$> index.variableType R ref
  | methodType name => .method <$> index.methodType R name
  | slotType slot => .type <$> index.slotType R slot
  | localVariableTypes => .variableTypes <$> index.localVariableTypes R
  | instanceVariableTypes => .variableTypes <$> index.instanceVariableTypes R
  | constantTypes => .constantTypes <$> index.constantTypes R
  | variableExpr ref => pure (.typeExpr (index.variableExpr ref))
  | methodExpr name => pure (.methodExpr (index.methodExpr name))
  | slotExpr slot => pure (.typeExpr (index.slotExpr slot))
  | implementedModule => pure (.module index.implementedModule)
  | dynamicDeclarations => pure (.declarations index.dynamicDeclarations)
  | dynamicInstanceMethods => pure (.names index.dynamicInstanceMethods)
  | dynamicModuleMethods => pure (.names index.dynamicModuleMethods)
  | contains a => pure (.truth (index.contains a))
  | any p =>
    let (found, tried) := index.anyCounted p
    pure (.found found tried)
  | size => pure (.count index.size)
  | isEmpty => pure (.truth index.isEmpty)
  | annotations => pure (.annotations index.annotations)
  | kinds => pure (.kinds index.kinds)
  | context => pure (.context index.scope.context)
  | resolverIs resolver => pure (.truth (decide (index.scope.resolver = resolver)))
  | describe => pure (.text (ScopedAnnotations.describe index))

end Query

/-- Something a session can be told to do. -/
inductive Command where
  /-- Call a scope by a name. -/
  | openScope (label : String) (scope : ResolutionScope)
  /-- Index annotations under a scope and call the index by a name. -/
  | build (label scope : String) (annotations : List Annotation)
  /-- Index a nested block and call the index by a name. -/
  | merge (label outer inner : String)
  /-- Whether two scopes are the same. -/
  | sameAs (a b : String)
  /-- Whether two scopes are the same, and if not, in what they differ. -/
  | check (outer inner : String)
  /-- The text that shows a scope. -/
  | describeScope (scope : String)
  /-- How many questions a resolver has been asked. -/
  | calls (resolver : ResolverId)
  /-- Ask an index something. -/
  | query (index : String) (query : Query)
  /-- Whether an index goes by this very scope. -/
  | indexSameAs (index scope : String)

/-- A name that stands for nothing. -/
inductive UnknownLabel where
  /-- No scope is called by this name. -/
  | scope (label : String)
  /-- No index is called by this name. -/
  | index (label : String)
  deriving DecidableEq, Repr

/-- What a run has come to. -/
structure Session where
  /-- The scopes, by name. -/
  scopes : Std.ExtTreeMap String ResolutionScope := ∅
  /-- The indexes, by name. -/
  indexes : Std.ExtTreeMap String Index := ∅
  /-- The questions asked. -/
  calls : Calls := {}

namespace Session

/-- The scope called by a name. -/
def scope (session : Session) (label : String) : Except UnknownLabel ResolutionScope :=
  match session.scopes[label]? with
  | some scope => .ok scope
  | none => .error (.scope label)

/-- The index called by a name. -/
def index (session : Session) (label : String) : Except UnknownLabel Index :=
  match session.indexes[label]? with
  | some index => .ok index
  | none => .error (.index label)

/-- Call an index by a name. -/
def keep (session : Session) (label : String) (index : Index) : Session :=
  { session with indexes := session.indexes.insert label index }

/-- Carry out one command. The reply comes with the records of what was
done for it. -/
def perform {τ μ : Type} (R : Resolvers Id τ μ) (session : Session) :
    Command → Except UnknownLabel (Traced (Reply τ μ) × Session)
  | .openScope label scope =>
    return (pure (.context scope.context),
      { session with scopes := session.scopes.insert label scope })
  | .build label scope annotations => do
    let made := Index.buildTraced annotations (← session.scope scope)
    return ((fun index => .indexed index.size) <$> made, session.keep label made.value)
  | .merge label outer inner => do
    let merged := (← session.index outer).mergeTraced (← session.index inner)
    match merged.value with
    | .ok index => return ((fun _ => .indexed index.size) <$> merged, session.keep label index)
    -- A refusal still leaves its record.
    | .error error => return ((fun _ => .refused error) <$> merged, session)
  | .sameAs a b => do
    return (pure (.truth ((← session.scope a).sameAs (← session.scope b))), session)
  | .check outer inner => do
    match (← session.scope outer).checkCompatible (← session.scope inner) with
    | .ok () => return (pure .compatible, session)
    | .error error => return (pure (.refused error), session)
  | .describeScope scope => do
    return (pure (.text (describe (← session.scope scope))), session)
  | .calls resolver => return (pure (.count (session.calls.count resolver)), session)
  | .query index query => do
    -- The questions asked for this query are counted on top of the earlier ones.
    let (reply, calls) := (query.answer R.counted (← session.index index)).run session.calls
    return (pure reply, { session with calls := calls })
  | .indexSameAs index scope => do
    return (pure (.truth ((← session.index index).scope.sameAs (← session.scope scope))),
      session)

/-- Carry out commands one after another. -/
def performAll {τ μ : Type} (R : Resolvers Id τ μ) (session : Session) :
    List Command → Except UnknownLabel (List (Traced (Reply τ μ)) × Session)
  | [] => return ([], session)
  | command :: commands => do
    let (reply, session) ← session.perform R command
    let (replies, session) ← session.performAll R commands
    return (reply :: replies, session)

end Session

end ScopedAnnotations
