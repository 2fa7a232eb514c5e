import CInterop.Binding.IntegerType
import CInterop.Mapping.Setting

/-!
# Primitive types

Most C primitives have one C# counterpart. The width of some integers depends on the platform: it is
taken from the node if the tree was made for the very pointer width, and else from the pointer
width. A primitive that is not known is taken for an unsigned integer of its size.
-/

namespace CInterop.Mapping

open Binding

/-- The counterparts of primitives that do not depend on the platform. -/
def fixedPrimitives : List (String × String) :=
  [("void", "void"), ("bool", "byte"), ("_Bool", "byte"), ("char", "byte"),
    ("signed char", "sbyte"), ("unsigned char", "byte"), ("short", "short"),
    ("unsigned short", "ushort"), ("int", "int"), ("unsigned int", "uint"),
    ("long long", "long"), ("unsigned long long", "ulong"), ("__int128", "Int128"),
    ("unsigned __int128", "UInt128"), ("float", "float"), ("double", "double"),
    ("long double", "double"), ("int8_t", "sbyte"), ("uint8_t", "byte"), ("int16_t", "short"),
    ("uint16_t", "ushort"), ("int32_t", "int"), ("uint32_t", "uint"), ("int64_t", "long"),
    ("uint64_t", "ulong")]

/-- The integers whose width depends on the platform, with whether they are signed. -/
def platformPrimitives : List (String × Bool) :=
  [("long", true), ("unsigned long", false), ("size_t", false), ("ssize_t", true),
    ("ptrdiff_t", true), ("intptr_t", true), ("uintptr_t", false)]

/-- The integer type of four or eight bytes. -/
def sizedInteger (size : Int) (isSigned : Bool) : IntegerType :=
  if size = 4 then (if isSigned then .int else .uint) else (if isSigned then .long else .ulong)

/-- The integer type of a platform dependent primitive of the given size. -/
def platformInteger? (s : Setting) (name : String) (size : Int) : Option IntegerType :=
  (platformPrimitives.lookup name).map fun isSigned =>
    if s.bitness = s.tree.bitness && (size = 4 || size = 8) then sizedInteger size isSigned
    else sizedInteger s.pointerSize isSigned

/-- The type for a primitive that is known by its size only. -/
def typeOfSize (size : Int) : String :=
  if size = 1 then "byte" else if size = 2 then "ushort" else if size = 4 then "uint"
  else if size = 8 then "ulong" else "IntPtr"

/-- The use of a primitive type. -/
def primitive (s : Setting) (name : String) (size align : Int) : Outcome TypeUse := do
  match platformInteger? s name size with
  | some integer => return ⟨integer.name, integer.size, integer.size, none⟩
  | none =>
    let use (type : String) : TypeUse := ⟨type, size, if align = 0 then size else align, none⟩
    match fixedPrimitives.lookup name with
    | some type =>
      if name = "long double" then
        Outcome.emit (.reportOnce name ⟨.unmappable name "is narrowed to 'double'", none⟩)
      return use type
    | none =>
      if name = "wchar_t" then return use (if size = 2 then "char" else "uint")
      else do
        let type := typeOfSize size
        Outcome.emit (.reportOnce name
          ⟨.unmappable name s!"unknown primitive is mapped by its size to '{type}'", none⟩)
        return use type

end CInterop.Mapping
