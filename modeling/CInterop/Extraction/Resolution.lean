import CInterop.Extraction.Tag

/-!
# Resolving types

To resolve a type is to give the name of its node and to declare the node, with everything it refers
to, if that was not done before. Records, enumerations and typedefs reserve their names before what
they contain is resolved, so that types may refer to each other.
-/

namespace CInterop.Extraction.Build

open FrontEnd Header

/-- Typedefs whose width depends on the platform; they are stored like types without parts. -/
def platformTypedefs : List String :=
  ["size_t", "ssize_t", "ptrdiff_t", "intptr_t", "uintptr_t", "wchar_t", "int8_t", "uint8_t",
    "int16_t", "uint16_t", "int32_t", "uint32_t", "int64_t", "uint64_t"]

/-- The node of a type without parts, under the given name. -/
def scalar (c : Setting) (t : TypeRef) (name : String) : Build String :=
  let info := c.type t
  declareOnce ⟨name, .primitive (max info.size 0) (max info.align 0), none⟩

/-- The node of a string. -/
def stringType (c : Setting) : Build String := do
  let char ← declareOnce ⟨"char", .primitive 1 1, none⟩
  noteString char
  let string ← declareOnce ⟨char ++ "*", .pointer char c.pointerSize, none⟩
  noteString string
  return string

section

/- The rules for one type, where `resolve` resolves the types it refers to. -/
variable (c : Setting) (resolve : TypeRef → Build String)

def functionPointer (t : TypeRef) : Build String := do
  let info := c.type t
  let result ← resolve info.result
  let parameters ← match info.kind with
    | .prototype => info.parameters.mapM resolve
    | _ => pure []
  declareOnce ⟨functionPointerName result parameters,
    .functionPointer result (parameters.map fun type => ⟨"", type⟩) c.pointerSize, none⟩

/-- The node of a pointer; a pointer to a function is a node of its own kind. -/
def pointer (t : TypeRef) : Build String := do
  let pointee := (c.type t).pointee
  let canonical := c.canonical pointee
  if (c.type canonical).kind.isFunction then functionPointer c resolve canonical
  else
    let target ← resolve pointee
    declareOnce ⟨target ++ "*", .pointer target c.pointerSize, none⟩

/-- The node of an array; an array without a length counts as empty. -/
def array (t : TypeRef) : Build String := do
  let info := c.type t
  let element ← resolve info.element
  let count := if info.kind = .constantArray then info.count else 0
  declareOnce ⟨s!"{element}[{count}]", .array element count (max info.size 0), none⟩

/-- A field with a name, at the given offset in the record. An anonymous tag is named by the first field
that has it as its type. -/
def namedField (record : String) (offset : Int) (field : Entity) : Build (Field String Int) := do
  match c.translation.tag? field.type with
  | some tag =>
    if isAnonymous tag then nameTag tag s!"{record}_{field.spelling}_{tag.kind.label}"
  | none => pure ()
  match field.bitWidth with
  | some width =>
    report (.unmappable s!"{record}.{field.spelling}"
      s!"bit-field of width {width} is exposed as its storage unit") (c.placeText field)
  | none => pure ()
  let type ← resolve field.type
  return ⟨field.spelling, type, offset, max (c.type field.type).size 0⟩

/-- The fields of a record type that starts at an offset of the record. The fields of an anonymous
member count as fields of the record. The steps bound how deep such members are nested. -/
def fieldsWithin : Nat → TypeRef → String → Int → Build (List (Field String Int))
  | 0, _, _, _ => throw (.failed (.fault .endlessTypes))
  | steps + 1, t, record, start => do
    let parts ← (c.type t).fields.mapM fun r => do
      let field := c.entity r
      let offset := start + field.bitOffset / 8
      if isName field.spelling then return [← namedField c resolve record offset field]
      else fieldsWithin steps (c.canonical field.type) record offset
    return parts.flatten

/-- The fields of a record. Without a cycle members are nested no deeper than there are types. -/
def fields (t : TypeRef) (record : String) : Build (List (Field String Int)) :=
  fieldsWithin c resolve (c.translation.types.size + 1) t record 0

/-- The node of a struct or a union, which is incomplete if it is not defined anywhere. -/
def record (t : TypeRef) : Build String := do
  let declaration := (c.type t).declaration
  let e := c.entity (c.translation.definitionOf declaration)
  let name ← tagName c e
  if ← isReserved name then return name
  announceIgnored c e name
  if (c.entity declaration).definition.index?.isNone then
    say s!"Found Opaque Type: {name}"
    declare ⟨name, .incomplete, c.place? e⟩
  else
    let label := if e.kind = .union then "Union" else "Struct"
    say s!"Found {label}: {name}"
    reserve name
    let info := c.type e.type
    let fields ← fields c resolve e.type name
    declare ⟨name, .record (e.kind = .union) fields (max info.size 0) (max info.align 0), c.place? e⟩
  return name

/-- The values of an enumeration. -/
def enumerators (e : Entity) : List (Enumerator String Int) :=
  ((e.children.map c.entity).filter (·.kind = .enumerator)).map fun v =>
    ⟨v.spelling, v.value, c.place? v⟩

def enumeration (t : TypeRef) : Build String := do
  let e := c.entity (c.translation.definitionOf (c.type t).declaration)
  let name ← tagName c e
  if ← isReserved name then return name
  announceIgnored c e name
  say s!"Found Enum: {name}"
  reserve name
  let integerType ← resolve e.integerType
  declare ⟨name, .enumeration integerType (enumerators c e), c.place? e⟩
  return name

/-- Whether a typedef gives a tag the name that the tag has anyway. -/
def namesItsTag (e : Entity) : Build Bool := do
  match c.translation.tag? e.underlying with
  | some tag => return (← tagName c tag) = e.spelling
  | none => return false

def typedef (e : Entity) : Build String := do
  let name := e.spelling
  if platformTypedefs.contains name then scalar c (c.canonical e.underlying) name
  else if ← isReserved name then return name
  else if ← namesItsTag c e then resolve e.underlying
  else
    announceIgnored c e name
    reserve name
    let underlying ← resolve e.underlying
    say s!"Found Typedef: {name} -> {underlying}"
    declare ⟨name, .typedef underlying, c.place? e⟩
    return name

/-- A type that only its canonical form can tell anything about. -/
def canonicalForm (t : TypeRef) : Build String :=
  let info := c.type t
  let canonical := c.canonical t
  let kind := (c.type canonical).kind
  if kind = info.kind ∨ kind = .invalid ∨ kind = .unexposed then
    throw (.unresolved (if info.spelling.isEmpty then info.kind.name else info.spelling))
  else resolve canonical

/-- The rule for one type. -/
def resolveStep (t : TypeRef) : Build String :=
  let info := c.type t
  match info.kind with
  | .elaborated => resolve info.named
  | .typedef => typedef c resolve (c.entity info.declaration)
  | .pointer => pointer c resolve t
  | .constantArray | .incompleteArray => array c resolve t
  | .record => record c resolve t
  | .enumeration => enumeration c resolve t
  | .prototype | .noPrototype => functionPointer c resolve t
  | .scalar _ => scalar c t (cleanSpelling (c.type (c.canonical t)).spelling)
  | .invalid | .unexposed | .other _ => canonicalForm c resolve t

end

/-- Resolves a type through at most the given number of references. -/
def resolveWithin (c : Setting) : Nat → TypeRef → Build String
  | 0, _ => throw (.failed (.fault .endlessTypes))
  | steps + 1, t => do
    let name ← resolveStep c (resolveWithin c steps) t
    noteResolved name
    return name

/-- A bound for the references from a type on. A record, an enumeration or a typedef is entered once,
and between two of them there are no more references than types. -/
def referenceLimit (c : Setting) : Nat :=
  (4 * c.translation.entities.size + 4) * (c.translation.types.size + 4)

/-- Resolves a type. -/
def resolve (c : Setting) (t : TypeRef) : Build String := resolveWithin c (referenceLimit c) t

end CInterop.Extraction.Build
