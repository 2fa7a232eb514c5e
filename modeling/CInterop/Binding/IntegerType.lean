/-!
# The integer types of C#

The eight types by size and sign, their ranges, and the smallest type for a set of values.
-/

namespace CInterop.Binding

/-- An integer type of C#. -/
inductive IntegerType where
  | byte
  | sbyte
  | ushort
  | short
  | uint
  | int
  | ulong
  | long
deriving DecidableEq, Repr

namespace IntegerType

def name : IntegerType → String
  | byte => "byte"
  | sbyte => "sbyte"
  | ushort => "ushort"
  | short => "short"
  | uint => "uint"
  | int => "int"
  | ulong => "ulong"
  | long => "long"

/-- The size in bytes. -/
def size : IntegerType → Nat
  | byte | sbyte => 1
  | ushort | short => 2
  | uint | int => 4
  | ulong | long => 8

def isSigned : IntegerType → Bool
  | byte | ushort | uint | ulong => false
  | sbyte | short | int | long => true

/-- All types from the smallest to the largest, the unsigned one of each size first. -/
def all : List IntegerType := [byte, sbyte, ushort, short, uint, int, ulong, long]

/-- The least value of the type. -/
def minimum (t : IntegerType) : Int := if t.isSigned then -(Nat.pow 2 (8 * t.size - 1) : Nat) else 0

/-- The greatest value of the type. -/
def maximum (t : IntegerType) : Int :=
  if t.isSigned then (Nat.pow 2 (8 * t.size - 1) : Nat) - 1 else (Nat.pow 2 (8 * t.size) : Nat) - 1

/-- Whether the type has every value between `low` and `high`. -/
def covers (t : IntegerType) (low high : Int) : Bool := t.minimum ≤ low && high ≤ t.maximum

def ofName? (text : String) : Option IntegerType := all.find? (·.name == text)

theorem ofName?_name (t : IntegerType) : ofName? t.name = some t := by
  cases t <;> decide

/-- The first type with all the given values; `long` if there is none. -/
def narrowest (values : List Int) : IntegerType :=
  let low := values.min?.getD 0
  let high := values.max?.getD 0
  (all.find? (·.covers low high)).getD long

end IntegerType
end CInterop.Binding
