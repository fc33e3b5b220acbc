import ScopedAnnotations.Text.Term
import ScopedAnnotations.SymbolTable
import ScopedAnnotations.ModuleContext
import ScopedAnnotations.Annotation

/-!
# How values are shown

The terms of names, paths, contexts, types and annotations. A name is shown by
its number, never by its text, so showing a value needs no symbol table and
two different values never look alike for want of one.
-/

namespace ScopedAnnotations

instance : Describable Name := ⟨fun name => .call "Name" (.number name.raw.toNat)⟩

instance : Describable QualifiedName where
  term path := .record "QualifiedName"
    [("namespace", term path.qualifier), ("name", term path.name),
      ("absolute", term path.absolute)] false

instance : Describable ModuleContext where
  term context := .record "ModuleContext" [("module", term context.module?)] false

instance : Describable InternError where
  term
    | .overflow count => .record "Overflow" [("count", .number count)] false

/-! ## Type expressions -/

namespace TypeExpr

mutual

/-- The term of a type expression. -/
def toTerm : TypeExpr → Term
  | any => .word "Any"
  | void => .word "Void"
  | nil => .word "Nil"
  | bool => .word "Bool"
  | selfType => .word "SelfType"
  | instanceType => .word "Instance"
  | classType => .word "Class"
  | var name => .call "Var" (term name)
  | named path args =>
    .record "Named" [("name", term path), ("args", .list (toTerms args))] false
  | tuple elems => .call "Tuple" (.list (toTerms elems))
  | union members => .call "Union" (.list (toTerms members))
  | optional inner => .call "Optional" inner.toTerm
  | proc method => .call "Proc" (signatureToTerm method)

/-- The terms of type expressions. -/
def toTerms : List TypeExpr → List Term
  | [] => []
  | t :: ts => t.toTerm :: toTerms ts

/-- The term of a signature. -/
def signatureToTerm : Signature TypeExpr → Term
  | ⟨vars, params, none, ret⟩ =>
    .record "MethodTypeExpr"
      [("type_params", term vars), ("params", .list (toTerms params)),
        ("block", .word "None"), ("ret", ret.toTerm)] false
  | ⟨vars, params, some ⟨blockParams, blockRet, required⟩, ret⟩ =>
    .record "MethodTypeExpr"
      [("type_params", term vars), ("params", .list (toTerms params)),
        ("block", .call "Some" (.record "BlockTypeExpr"
          [("params", .list (toTerms blockParams)), ("ret", blockRet.toTerm),
            ("required", term required)] false)),
        ("ret", ret.toTerm)] false

end

theorem toTerms_eq_map (ts : List TypeExpr) : toTerms ts = ts.map toTerm := by
  induction ts with
  | nil => rfl
  | cons t ts ih => simp [toTerms, ih]

end TypeExpr

instance : Describable TypeExpr := ⟨TypeExpr.toTerm⟩

instance : Describable BlockType where
  term block := .record "BlockTypeExpr"
    [("params", term block.params), ("ret", term block.ret),
      ("required", term block.required)] false

instance : Describable MethodType := ⟨TypeExpr.signatureToTerm⟩

/-- A method type is shown by showing its four parts. -/
theorem term_methodType (method : MethodType) :
    term method = .record "MethodTypeExpr"
      [("type_params", term method.typeParams), ("params", term method.params),
        ("block", term method.block), ("ret", term method.ret)] false := by
  obtain ⟨vars, params, _ | ⟨blockParams, blockRet, required⟩, ret⟩ := method <;>
    simp [term, TypeExpr.signatureToTerm, TypeExpr.toTerms_eq_map]

/-! ## Annotations -/

instance : Describable DynamicScope where
  term
    | .onInstance => .word "Instance"
    | .onModule => .word "Module"

instance : Describable DynamicName where
  term dynamic := .record "DynamicName"
    [("name", term dynamic.name), ("scope", term dynamic.scope)] false

instance : Describable Kind where
  term
    | .varType => .word "VarType"
    | .ivarType => .word "IvarType"
    | .constType => .word "ConstType"
    | .methodType => .word "MethodType"
    | .blockType => .word "BlockType"
    | .breakType => .word "BreakType"
    | .returnType => .word "ReturnType"
    | .selfType => .word "SelfType"
    | .instanceType => .word "InstanceType"
    | .moduleType => .word "ModuleType"
    | .implements => .word "Implements"
    | .dynamic => .word "Dynamic"

instance : Describable Annotation where
  term
    | .varType name type => .record "VarType" [("name", term name), ("ty", term type)] false
    | .ivarType name type => .record "IvarType" [("name", term name), ("ty", term type)] false
    | .constType path type => .record "ConstType" [("name", term path), ("ty", term type)] false
    | .methodType name type => .record "MethodType" [("name", term name), ("ty", term type)] false
    | .blockType type => .call "BlockType" (term type)
    | .breakType type => .call "BreakType" (term type)
    | .returnType type => .call "ReturnType" (term type)
    | .selfType type => .call "SelfType" (term type)
    | .instanceType type => .call "InstanceType" (term type)
    | .moduleType type => .call "ModuleType" (term type)
    | .implements path => .call "Implements" (term path)
    | .dynamic names => .call "Dynamic" (term names)

end ScopedAnnotations
