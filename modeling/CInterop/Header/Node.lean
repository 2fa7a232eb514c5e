/-!
# Declarations of a C header

A header is described by nodes, each with a name that no other node has. Types that C spells out
(pointers, arrays, function pointers) are nodes as well, so every reference to a type is a name.

The types of the leaves are parameters: `τ` for texts, `ι` for integers, `β` for truth values. A tree
that was just read holds whatever the document had in their places; the rest of the library works
on trees of texts, integers and truth values.
-/

namespace CInterop.Header

variable {τ ι β τ' ι' β' : Type}

/-- A place in a source file. -/
structure Location (τ ι : Type) where
  file : τ
  line : ι
deriving DecidableEq, Repr

/-- A parameter of a function. -/
structure Parameter (τ : Type) where
  name : τ
  type : τ
deriving DecidableEq, Repr

/-- A field of a record with its offset and size in bytes. -/
structure Field (τ ι : Type) where
  name : τ
  type : τ
  offset : ι
  size : ι
deriving DecidableEq, Repr

/-- A named value of an enumeration. -/
structure Enumerator (τ ι : Type) where
  name : τ
  value : ι
  location : Option (Location τ ι)
deriving DecidableEq, Repr

/-- What a node declares. -/
inductive Body (τ ι β : Type) where
  | primitive (size align : ι)
  | pointer (pointee : τ) (size : ι)
  | array (element : τ) (count size : ι)
  | functionPointer (result : τ) (parameters : List (Parameter τ)) (size : ι)
  | record (isUnion : β) (fields : List (Field τ ι)) (size align : ι)
  | enumeration (integerType : τ) (values : List (Enumerator τ ι))
  | enumerator (value : ι)
  /-- A record without a definition. -/
  | incomplete
  | typedef (underlying : τ)
  | function (result : τ) (parameters : List (Parameter τ)) (isVariadic : β) (convention : τ)
  /-- A variable of the library. -/
  | global (type : τ)
  /-- A macro that stands for a constant, with its replacement text. -/
  | constant (type value : τ)
deriving DecidableEq, Repr

/-- A declaration or a type under its name. -/
structure Node (τ ι β : Type) where
  name : τ
  body : Body τ ι β
  location : Option (Location τ ι) := none
deriving DecidableEq, Repr

/-- The kinds of nodes, and of the document as a whole. -/
inductive Kind where
  | translationUnit
  | primitive
  | pointer
  | array
  | function
  | functionPointer
  | record
  | enumeration
  | enumerator
  | incomplete
  | typedef
  | global
  | constant
deriving DecidableEq, Repr

namespace Kind

/-- The name of a kind in documents and messages. -/
def name : Kind → String
  | translationUnit => "translationUnit"
  | primitive => "primitive"
  | pointer => "pointer"
  | array => "array"
  | function => "function"
  | functionPointer => "functionPointer"
  | record => "record"
  | enumeration => "enum"
  | enumerator => "enumValue"
  | incomplete => "opaqueType"
  | typedef => "typedef"
  | global => "variable"
  | constant => "macroDefinition"

def all : List Kind :=
  [translationUnit, primitive, pointer, array, function, functionPointer, record, enumeration,
    enumerator, incomplete, typedef, global, constant]

def ofName? (text : String) : Option Kind := all.find? (·.name == text)

theorem ofName?_name (k : Kind) : ofName? k.name = some k := by
  cases k <;> decide

end Kind

/-- The kind of a body. -/
def Body.kind : Body τ ι β → Kind
  | primitive .. => .primitive
  | pointer .. => .pointer
  | array .. => .array
  | functionPointer .. => .functionPointer
  | record .. => .record
  | enumeration .. => .enumeration
  | enumerator .. => .enumerator
  | incomplete => .incomplete
  | typedef .. => .typedef
  | function .. => .function
  | global .. => .global
  | constant .. => .constant

def Node.kind (n : Node τ ι β) : Kind := n.body.kind

/-- Whether a type reference may name a node of this kind. -/
def Kind.isType : Kind → Bool
  | primitive | pointer | array | functionPointer | record | enumeration | incomplete | typedef =>
    true
  | _ => false

/-- The types a body refers to, in the order in which it mentions them. -/
def Body.references : Body τ ι β → List τ
  | pointer pointee _ => [pointee]
  | array element .. => [element]
  | functionPointer result parameters _ => result :: parameters.map (·.type)
  | function result parameters .. => result :: parameters.map (·.type)
  | record _ fields .. => fields.map (·.type)
  | enumeration integerType _ => [integerType]
  | typedef underlying => [underlying]
  | global type => [type]
  | constant type _ => [type]
  | primitive .. | enumerator .. | incomplete => []

/-! ## Changing the leaves -/

def Location.map (f : τ → τ') (g : ι → ι') (l : Location τ ι) : Location τ' ι' :=
  ⟨f l.file, g l.line⟩

def Parameter.map (f : τ → τ') (p : Parameter τ) : Parameter τ' := ⟨f p.name, f p.type⟩

def Field.map (f : τ → τ') (g : ι → ι') (x : Field τ ι) : Field τ' ι' :=
  ⟨f x.name, f x.type, g x.offset, g x.size⟩

def Enumerator.map (f : τ → τ') (g : ι → ι') (v : Enumerator τ ι) : Enumerator τ' ι' :=
  ⟨f v.name, g v.value, v.location.map (·.map f g)⟩

/-- The body with every leaf replaced. -/
def Body.map (f : τ → τ') (g : ι → ι') (h : β → β') : Body τ ι β → Body τ' ι' β'
  | primitive size align => .primitive (g size) (g align)
  | pointer pointee size => .pointer (f pointee) (g size)
  | array element count size => .array (f element) (g count) (g size)
  | functionPointer result parameters size =>
    .functionPointer (f result) (parameters.map (·.map f)) (g size)
  | record isUnion fields size align =>
    .record (h isUnion) (fields.map (·.map f g)) (g size) (g align)
  | enumeration integerType values => .enumeration (f integerType) (values.map (·.map f g))
  | enumerator value => .enumerator (g value)
  | incomplete => .incomplete
  | typedef underlying => .typedef (f underlying)
  | function result parameters isVariadic convention =>
    .function (f result) (parameters.map (·.map f)) (h isVariadic) (f convention)
  | global type => .global (f type)
  | constant type value => .constant (f type) (f value)

def Node.map (f : τ → τ') (g : ι → ι') (h : β → β') (n : Node τ ι β) : Node τ' ι' β' :=
  ⟨f n.name, n.body.map f g h, n.location.map (·.map f g)⟩

/-! ## Replacing the leaves where each has a replacement -/

def Location.mapM? (f : τ → Option τ') (g : ι → Option ι') (l : Location τ ι) :
    Option (Location τ' ι') := do
  return ⟨← f l.file, ← g l.line⟩

/-- An absent place has a replacement, namely none. -/
def Location.mapAbsentM? (f : τ → Option τ') (g : ι → Option ι') :
    Option (Location τ ι) → Option (Option (Location τ' ι'))
  | none => some none
  | some l => (l.mapM? f g).map some

def Parameter.mapM? (f : τ → Option τ') (p : Parameter τ) : Option (Parameter τ') := do
  return ⟨← f p.name, ← f p.type⟩

def Field.mapM? (f : τ → Option τ') (g : ι → Option ι') (x : Field τ ι) :
    Option (Field τ' ι') := do
  return ⟨← f x.name, ← f x.type, ← g x.offset, ← g x.size⟩

def Enumerator.mapM? (f : τ → Option τ') (g : ι → Option ι') (v : Enumerator τ ι) :
    Option (Enumerator τ' ι') := do
  return ⟨← f v.name, ← g v.value, ← Location.mapAbsentM? f g v.location⟩

/-- The body with every leaf replaced. -/
def Body.mapM? (f : τ → Option τ') (g : ι → Option ι') (h : β → Option β') :
    Body τ ι β → Option (Body τ' ι' β')
  | primitive size align => do return .primitive (← g size) (← g align)
  | pointer pointee size => do return .pointer (← f pointee) (← g size)
  | array element count size => do return .array (← f element) (← g count) (← g size)
  | functionPointer result parameters size => do
    return .functionPointer (← f result) (← parameters.mapM (·.mapM? f)) (← g size)
  | record isUnion fields size align => do
    return .record (← h isUnion) (← fields.mapM (·.mapM? f g)) (← g size) (← g align)
  | enumeration integerType values => do
    return .enumeration (← f integerType) (← values.mapM (·.mapM? f g))
  | enumerator value => do return .enumerator (← g value)
  | incomplete => some .incomplete
  | typedef underlying => do return .typedef (← f underlying)
  | function result parameters isVariadic convention => do
    return .function (← f result) (← parameters.mapM (·.mapM? f)) (← h isVariadic) (← f convention)
  | global type => do return .global (← f type)
  | constant type value => do return .constant (← f type) (← f value)

def Node.mapM? (f : τ → Option τ') (g : ι → Option ι') (h : β → Option β') (n : Node τ ι β) :
    Option (Node τ' ι' β') := do
  return ⟨← f n.name, ← n.body.mapM? f g h, ← Location.mapAbsentM? f g n.location⟩

end CInterop.Header
