/-!
# Types as the C front end knows them

The front end keeps its types in a table and answers every question about every type; where a
question makes no sense the answer is empty. A reference that leads nowhere is the invalid type.
-/

namespace CInterop.FrontEnd

/-- A type of the table, or none. -/
structure TypeRef where
  index? : Option Nat := none
deriving DecidableEq, Repr, Inhabited

/-- A declaration or another thing in the source, by its place in the table, or none. -/
structure EntityRef where
  index? : Option Nat := none
deriving DecidableEq, Repr, Inhabited

/-- The types without parts. -/
inductive Scalar where
  | void
  | bool
  | plainUnsignedChar
  | unsignedChar
  | char16
  | char32
  | unsignedShort
  | unsignedInt
  | unsignedLong
  | unsignedLongLong
  | unsignedInt128
  | plainSignedChar
  | signedChar
  | wideChar
  | short
  | int
  | long
  | longLong
  | int128
  | float
  | double
  | longDouble
deriving DecidableEq, Repr

namespace Scalar

/-- What the front end calls the kind. -/
def name : Scalar → String
  | void => "VOID"
  | bool => "BOOL"
  | plainUnsignedChar => "CHAR_U"
  | unsignedChar => "UCHAR"
  | char16 => "CHAR16"
  | char32 => "CHAR32"
  | unsignedShort => "USHORT"
  | unsignedInt => "UINT"
  | unsignedLong => "ULONG"
  | unsignedLongLong => "ULONGLONG"
  | unsignedInt128 => "UINT128"
  | plainSignedChar => "CHAR_S"
  | signedChar => "SCHAR"
  | wideChar => "WCHAR"
  | short => "SHORT"
  | int => "INT"
  | long => "LONG"
  | longLong => "LONGLONG"
  | int128 => "INT128"
  | float => "FLOAT"
  | double => "DOUBLE"
  | longDouble => "LONGDOUBLE"

def all : List Scalar :=
  [void, bool, plainUnsignedChar, unsignedChar, char16, char32, unsignedShort, unsignedInt,
    unsignedLong, unsignedLongLong, unsignedInt128, plainSignedChar, signedChar, wideChar, short,
    int, long, longLong, int128, float, double, longDouble]

/-- Whether an array of the type can be written as a string literal. -/
def isCharacter : Scalar → Bool
  | plainUnsignedChar | unsignedChar | plainSignedChar | signedChar => true
  | _ => false

end Scalar

/-- The kinds of types. -/
inductive TypeKind where
  | invalid
  | unexposed
  | scalar (scalar : Scalar)
  /-- A type that is named in the source, with a keyword such as `struct` or through a typedef. -/
  | elaborated
  | typedef
  | pointer
  | constantArray
  | incompleteArray
  | record
  | enumeration
  /-- A function type with its parameters. -/
  | prototype
  /-- A function type that says nothing about its parameters. -/
  | noPrototype
  /-- Any other kind, by its name. -/
  | other (name : String)
deriving DecidableEq, Repr

namespace TypeKind

/-- What the front end calls the kind. -/
def name : TypeKind → String
  | invalid => "INVALID"
  | unexposed => "UNEXPOSED"
  | scalar s => s.name
  | elaborated => "ELABORATED"
  | typedef => "TYPEDEF"
  | pointer => "POINTER"
  | constantArray => "CONSTANTARRAY"
  | incompleteArray => "INCOMPLETEARRAY"
  | record => "RECORD"
  | enumeration => "ENUM"
  | prototype => "FUNCTIONPROTO"
  | noPrototype => "FUNCTIONNOPROTO"
  | other name => name

/-- The kinds that the library tells apart. -/
def known : List TypeKind :=
  [invalid, unexposed, elaborated, typedef, pointer, constantArray, incompleteArray, record,
    enumeration, prototype, noPrototype] ++ Scalar.all.map scalar

/-- The kind of that name. -/
def ofName (text : String) : TypeKind := (known.find? (·.name == text)).getD (other text)

theorem ofName_name_of_mem {k : TypeKind} (h : k ∈ known) : ofName k.name = k := by
  revert k
  decide

/-- Whether the type is that of a function. -/
def isFunction : TypeKind → Bool
  | prototype | noPrototype => true
  | _ => false

/-- Whether the type is that of an array. -/
def isArray : TypeKind → Bool
  | constantArray | incompleteArray => true
  | _ => false

end TypeKind

/-- What the front end says about a type. -/
structure TypeInfo where
  kind : TypeKind := .invalid
  spelling : String := ""
  /-- The type after all names are resolved; none if it is the type itself. -/
  canonical : TypeRef := {}
  /-- The size and the alignment in bytes; negative if there is none. -/
  size : Int := -1
  align : Int := -1
  pointee : TypeRef := {}
  element : TypeRef := {}
  count : Int := -1
  /-- The type that an elaborated type names. -/
  named : TypeRef := {}
  /-- The declaration of a record, an enumeration or a typedef. -/
  declaration : EntityRef := {}
  fields : List EntityRef := []
  result : TypeRef := {}
  parameters : List TypeRef := []
  isVariadic : Bool := false
deriving DecidableEq, Repr, Inhabited

end CInterop.FrontEnd
