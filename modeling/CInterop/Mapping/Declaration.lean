import CInterop.Macro.Expr.Parser
import CInterop.Macro.Expr.Render
import CInterop.Mapping.TypeUse

/-!
# Declarations of the binding

Which declaration a node of the tree has in the binding, if any. Every reason to leave something out
is reported.
-/

namespace CInterop.Mapping

open Header

/-- The types a C# constant can have. -/
def constantTypes : List String := bufferTypes ++ ["string"]

/-- The C# names of calling conventions; others are taken for the default. -/
def callingConvention (name : String) : String :=
  ([("cdecl", "Cdecl"), ("stdcall", "StdCall"), ("fastcall", "FastCall"),
    ("thiscall", "ThisCall")].lookup name).getD "Cdecl"

/-- The comment above a declaration: what it was in C, and where. -/
def commentFor (sort : String) (node : Declaration) : String :=
  match node.location with
  | some place => sort ++ " @ " ++ Place.text place
  | none => sort

/-- A declaration that comes from a node and bears its name. -/
def fromNode (node : Declaration) (sort : String) (body : Binding.Body) : Binding.Declaration :=
  ⟨Binding.escape node.name, body, commentFor sort node, some node.name⟩

/-- Reports that something about a node has no counterpart. -/
def reportUnmappable (node : Declaration) (name reason : String) : Outcome Unit :=
  Outcome.emit (.report ⟨.unmappable name reason, some node.place⟩)

/-- The parameters of a function; one without a name is named for its position, from `index` on. -/
def parametersFrom (s : Setting) : Nat → List (Parameter String) → Outcome (List Binding.Parameter)
  | _, [] => return []
  | index, p :: rest => do
    let type ← typeUse s p.type .value
    let name := if p.name = "" then s!"arg{index}" else p.name
    let others ← parametersFrom s (index + 1) rest
    return ⟨Binding.escape name, type⟩ :: others

/-- The bytes between the end of a field and what follows: the next field in a struct, the end of a
union. Overlapping fields have none. -/
def paddingAfter (isUnion : Bool) (offsets : List Int) (recordSize offset size : Int) : Int :=
  let next :=
    if isUnion then recordSize else ((offsets.filter (offset < ·)).min?).getD recordSize
  max 0 (next - (offset + size))

/-- The fields of a record. A field without a size is left out. -/
def fieldsOf (s : Setting) (node : Declaration) (padding : Field String Int → Int) :
    List (Field String Int) → Outcome (List Binding.Field)
  | [] => return []
  | f :: rest =>
    if f.size = 0 then do
      reportUnmappable node (node.name ++ "." ++ f.name)
        "zero sized field is covered by the struct size only"
      fieldsOf s node padding rest
    else do
      let type ← typeUse s f.type .field
      let others ← fieldsOf s node padding rest
      return ⟨Binding.escape f.name, type, f.offset, padding f⟩ :: others

/-- The constant for a macro, if its type has constants and its value is an expression. -/
def constant? (s : Setting) (node : Declaration) (type value : String) :
    Outcome (Option Binding.Declaration) := do
  let target ← Outcome.ofExcept (s.node type)
  let typeName ←
    if target.kind = .pointer && type = "char*" then pure "string"
    else do pure (← typeUse s type .value).name
  match constantTypes.contains typeName, Macro.Expr.ofText? value with
  | true, some e =>
    match e.renderConstant typeName with
    | .ok text => return some (fromNode node "MacroDefinition" (.constant typeName text))
    | .error _ => Outcome.stop (.failed (.fault .literal))
  | _, _ => do
    reportUnmappable node node.name s!"a constant of C type '{type}' has no C# constant form"
    return none

/-- The declaration for a node. Types that are spelled where they are used have none. -/
def declaration? (s : Setting) (node : Declaration) : Outcome (Option Binding.Declaration) :=
  match node.body with
  | .primitive .. | .pointer .. | .array .. | .enumerator .. => pure none
  | .function result parameters isVariadic convention =>
    if isVariadic then do
      reportUnmappable node node.name "variadic functions cannot be bound with a static signature"
      return none
    else do
      let result ← typeUse s result .value
      let parameters ← parametersFrom s 0 parameters
      return some (fromNode node "Function"
        (.function result parameters (callingConvention convention)))
  | .functionPointer result parameters _ => do
    let result ← typeUse s result .value
    let parameters ← parametersFrom s 0 parameters
    return some (fromNode node "FunctionPointer" (.functionPointer result parameters "Cdecl"))
  | .record isUnion fields size align => do
    let offsets := fields.map (·.offset)
    let fields ← fieldsOf s node
      (fun f => paddingAfter isUnion offsets size f.offset f.size) fields
    return some (fromNode node (if isUnion then "Union" else "Struct") (.struct fields size align))
  | .enumeration integerType values => do
    let type ← backing (typeUse s) integerType values
    return some (fromNode node "Enum" (.enumeration type
      (values.map fun v => ⟨Binding.escape v.name, v.value⟩)))
  | .incomplete => pure (some (fromNode node "OpaqueType" .incomplete))
  | .typedef underlying => do
    let type ← typeUse s underlying .field
    return if type.name = "void" then none
      else some (fromNode node "Typedef" (.aliasStruct type))
  | .global type => do
    let target ← Outcome.ofExcept (s.node type)
    let exposed := match target.body with
      | .array element .. => element
      | _ => type
    let type ← typeUse s exposed .value
    return some (fromNode node "Variable" (.global node.name type))
  | .constant type value => constant? s node type value

end CInterop.Mapping
