import ScopedAnnotations.TypeExpr

/-!
# Annotations

One annotation is one declaration an author made in a comment: the type of a
variable, of a method, of the block at hand, the module being implemented, or
a list of methods that exist only at run time. There are twelve kinds of it,
and each kind says something about a place:

* four kinds say something about a *key* – a local variable, an instance
  variable, a constant, a method – and there may be one answer per key;
* seven kinds say something about the scope itself, and there may be one
  answer altogether;
* dynamic declarations do not answer anything; they pile up.

The *kind* of an annotation is that classification without the content. Its
order is the order of the list above, which is the order the constructors are
declared in.
-/

namespace ScopedAnnotations

/-- Which side of a module a dynamically defined method lives on. -/
inductive DynamicScope where
  /-- A method of the instances: `foo`. -/
  | onInstance
  /-- A method of the module itself: `self.foo`. -/
  | onModule
  deriving DecidableEq, Repr

/-- One method listed in a dynamic declaration. -/
structure DynamicName where
  /-- The method's name. -/
  name : Name
  /-- The side of the module it lives on. -/
  scope : DynamicScope
  deriving DecidableEq, Repr

namespace DynamicName

/-- A method of the instances. -/
def ofInstance (name : Name) : DynamicName := ⟨name, .onInstance⟩

/-- A method of the module itself. -/
def ofModule (name : Name) : DynamicName := ⟨name, .onModule⟩

/-- Whether the method lives on the instances. -/
def isInstance (dynamic : DynamicName) : Bool := decide (dynamic.scope = .onInstance)

/-- Whether the method lives on the module itself. -/
def isModule (dynamic : DynamicName) : Bool := decide (dynamic.scope = .onModule)

end DynamicName

/-- What an annotation is about, without what it says. -/
inductive Kind where
  /-- A local variable. -/
  | varType
  /-- An instance variable. -/
  | ivarType
  /-- A constant. -/
  | constType
  /-- A method. -/
  | methodType
  /-- The block being checked. -/
  | blockType
  /-- The values that `break` leaves the block with. -/
  | breakType
  /-- The values that are returned. -/
  | returnType
  /-- The receiver. -/
  | selfType
  /-- The instances of the enclosing module. -/
  | instanceType
  /-- The enclosing module itself. -/
  | moduleType
  /-- The module being implemented. -/
  | implements
  /-- Methods that exist only at run time. -/
  | dynamic
  deriving DecidableEq, Repr, Ord

namespace Kind

/-- Every kind, in order. -/
def all : List Kind :=
  [varType, ivarType, constType, methodType, blockType, breakType, returnType, selfType,
    instanceType, moduleType, implements, dynamic]

/-- The short word for a kind, as it appears in records. -/
def label : Kind → String
  | varType => "var"
  | ivarType => "ivar"
  | constType => "const"
  | methodType => "method"
  | blockType => "block"
  | breakType => "break"
  | returnType => "return"
  | selfType => "self"
  | instanceType => "instance"
  | moduleType => "module"
  | implements => "implements"
  | dynamic => "dynamic"

/-- The kind with a given short word. -/
def ofLabel? (text : String) : Option Kind := all.find? (fun kind => kind.label == text)

/-- Whether annotations of this kind belong to one block alone. What they
say about a block says nothing about the blocks nested in it, so it is dropped
on the way in rather than inherited. -/
def isBlockScoped : Kind → Bool
  | blockType | breakType => true
  | _ => false

theorem mem_all (kind : Kind) : kind ∈ all := by cases kind <;> decide

theorem ofLabel?_label (kind : Kind) : ofLabel? kind.label = some kind := by
  cases kind <;> decide

end Kind

/-- One declaration. -/
inductive Annotation where
  /-- Written `@type var x: T`. -/
  | varType (name : Name) (type : TypeExpr)
  /-- Written `@type ivar @x: T`. -/
  | ivarType (name : Name) (type : TypeExpr)
  /-- Written `@type const Foo::Bar: T`. -/
  | constType (path : QualifiedName) (type : TypeExpr)
  /-- Written `@type method foo: (A) -> B`. -/
  | methodType (name : Name) (type : MethodType)
  /-- Written `@type block: T`. -/
  | blockType (type : TypeExpr)
  /-- Written `@type break: T`. -/
  | breakType (type : TypeExpr)
  /-- Written `@type return: T`. -/
  | returnType (type : TypeExpr)
  /-- Written `@type self: T`. -/
  | selfType (type : TypeExpr)
  /-- Written `@type instance: T`. -/
  | instanceType (type : TypeExpr)
  /-- Written `@type module: T`. -/
  | moduleType (type : TypeExpr)
  /-- Written `@implements Foo`. -/
  | implements (path : QualifiedName)
  /-- Written `@dynamic foo, self.bar`. -/
  | dynamic (names : List DynamicName)
  deriving DecidableEq

namespace Annotation

/-- What the annotation is about. -/
def kind : Annotation → Kind
  | varType .. => .varType
  | ivarType .. => .ivarType
  | constType .. => .constType
  | methodType .. => .methodType
  | blockType _ => .blockType
  | breakType _ => .breakType
  | returnType _ => .returnType
  | selfType _ => .selfType
  | instanceType _ => .instanceType
  | moduleType _ => .moduleType
  | implements _ => .implements
  | dynamic _ => .dynamic

/-- Whether the annotation belongs to one block alone. -/
def isBlockScoped (a : Annotation) : Bool := a.kind.isBlockScoped

end Annotation

end ScopedAnnotations
