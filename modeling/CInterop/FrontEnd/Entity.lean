import CInterop.FrontEnd.TypeInfo

/-!
# Things in the source as the C front end knows them

An entity is a declaration, a part of one or a macro. Like types, entities are kept in a table, and
every question about every entity has an answer.
-/

namespace CInterop.FrontEnd

/-- The kinds of entities. -/
inductive EntityKind where
  | function
  | global
  | struct
  | union
  | enumeration
  | enumerator
  | typedef
  | constant
  /-- Any other kind, by its name. -/
  | other (name : String)
deriving DecidableEq, Repr

namespace EntityKind

/-- What the front end calls the kind. -/
def name : EntityKind → String
  | function => "FUNCTION_DECL"
  | global => "VAR_DECL"
  | struct => "STRUCT_DECL"
  | union => "UNION_DECL"
  | enumeration => "ENUM_DECL"
  | enumerator => "ENUM_CONSTANT_DECL"
  | typedef => "TYPEDEF_DECL"
  | constant => "MACRO_DEFINITION"
  | other name => name

/-- The kinds that the library tells apart. -/
def known : List EntityKind :=
  [function, global, struct, union, enumeration, enumerator, typedef, constant]

/-- The kind of that name. -/
def ofName (text : String) : EntityKind := (known.find? (·.name == text)).getD (other text)

theorem ofName_name_of_mem {k : EntityKind} (h : k ∈ known) : ofName k.name = k := by
  revert k
  decide

/-- Whether the entity declares a struct or a union. -/
def isRecord : EntityKind → Bool
  | struct | union => true
  | _ => false

/-- The keyword of a tag. -/
def keyword : EntityKind → String
  | union => "union"
  | enumeration => "enum"
  | _ => "struct"

/-- The keyword of a tag, capitalised. -/
def label : EntityKind → String
  | union => "Union"
  | enumeration => "Enum"
  | _ => "Struct"

end EntityKind

/-- A token of a macro definition with the offsets where it begins and ends. -/
structure SourceToken where
  spelling : String
  start : Int
  stop : Int
deriving DecidableEq, Repr

/-- What the front end says about an entity. -/
structure Entity where
  kind : EntityKind := .other ""
  spelling : String := ""
  /-- The file the entity is in; predefined entities are in none. -/
  file : Option String := none
  line : Int := 0
  column : Int := 0
  isInSystemHeader : Bool := false
  isStatic : Bool := false
  type : TypeRef := {}
  /-- The result type of a function. -/
  result : TypeRef := {}
  /-- The type that a typedef gives a name to. -/
  underlying : TypeRef := {}
  /-- The integer type of an enumeration. -/
  integerType : TypeRef := {}
  parameters : List EntityRef := []
  children : List EntityRef := []
  /-- Where a record or an enumeration is defined, if it is. -/
  definition : EntityRef := {}
  isAnonymous : Bool := false
  /-- The offset of a field in bits. -/
  bitOffset : Int := 0
  /-- The width of a bit-field. -/
  bitWidth : Option Int := none
  /-- The value of an enumerator. -/
  value : Int := 0
  tokens : List SourceToken := []
deriving DecidableEq, Repr, Inhabited

/-- Where the entity is, for telling declarations apart. -/
def Entity.spot (e : Entity) : String × Int × Int := (e.file.getD "", e.line, e.column)

end CInterop.FrontEnd
