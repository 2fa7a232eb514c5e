/-!
# C# declarations

What a binding consists of. A type is used by its spelling, and every use carries the native layout
that the spelling stands for.
-/

namespace CInterop.Binding

/-- A C# type as it is spelled, with the size and alignment of the C type behind it in bytes. -/
structure TypeUse where
  name : String
  size : Int
  align : Int := 0
  /-- The number of elements, if a field of the type is written as a fixed buffer. -/
  count : Option Int := none
deriving DecidableEq, Repr

def TypeUse.isFixedBuffer (t : TypeUse) : Bool := t.count.isSome

structure Parameter where
  name : String
  type : TypeUse
deriving DecidableEq, Repr

/-- A field at its offset, with the bytes between its end and the next field. -/
structure Field where
  name : String
  type : TypeUse
  offset : Int
  padding : Int := 0
deriving DecidableEq, Repr

structure EnumValue where
  name : String
  value : Int
deriving DecidableEq, Repr

/-- What is declared. -/
inductive Body where
  | function (result : TypeUse) (parameters : List Parameter) (convention : String)
  | functionPointer (result : TypeUse) (parameters : List Parameter) (convention : String)
  | struct (fields : List Field) (size align : Int)
  /-- A struct known by name only. -/
  | incomplete
  | enumeration (integerType : TypeUse) (values : List EnumValue)
  /-- A type of its own with the representation of another one. -/
  | aliasStruct (underlying : TypeUse)
  /-- A helper that holds a number of elements one after the other. -/
  | fixedBuffer (element : TypeUse) (count size : Int)
  | constant (type value : String)
  /-- A variable of the native library, with the name of its symbol. -/
  | global (symbol : String) (type : TypeUse)
deriving DecidableEq, Repr

/-- A declaration with its name, the comment written above it and the C node it came from. -/
structure Declaration where
  name : String
  body : Body
  comment : String := ""
  origin : Option String := none
deriving DecidableEq, Repr

/-- The sorts of declarations. -/
inductive Kind where
  | function
  | functionPointer
  | struct
  | incomplete
  | enumeration
  | aliasStruct
  | fixedBuffer
  | constant
  | global
deriving DecidableEq, Repr

namespace Kind

def name : Kind → String
  | function => "function"
  | functionPointer => "functionPointer"
  | struct => "struct"
  | incomplete => "opaqueType"
  | enumeration => "enum"
  | aliasStruct => "aliasStruct"
  | fixedBuffer => "fixedBuffer"
  | constant => "constant"
  | global => "variable"

def all : List Kind :=
  [function, functionPointer, struct, incomplete, enumeration, aliasStruct, fixedBuffer, constant,
    global]

def ofName? (text : String) : Option Kind := all.find? (·.name == text)

theorem ofName?_name (k : Kind) : ofName? k.name = some k := by
  cases k <;> decide

end Kind

def Body.kind : Body → Kind
  | function .. => .function
  | functionPointer .. => .functionPointer
  | struct .. => .struct
  | incomplete => .incomplete
  | enumeration .. => .enumeration
  | aliasStruct .. => .aliasStruct
  | fixedBuffer .. => .fixedBuffer
  | constant .. => .constant
  | global .. => .global

def Declaration.kind (d : Declaration) : Kind := d.body.kind

/-- The declarations of one class. -/
structure Bindings where
  className : String
  bitness : Int
  declarations : List Declaration
deriving DecidableEq, Repr

namespace Bindings

def ofKind (b : Bindings) (kind : Kind) : List Declaration :=
  b.declarations.filter fun d => d.kind = kind

/-- The first declaration of that name. -/
def declaration? (b : Bindings) (name : String) : Option Declaration :=
  b.declarations.find? fun d => d.name = name

end Bindings
end CInterop.Binding
