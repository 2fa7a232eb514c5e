import CInterop.Number.EnglishWords
import CInterop.Text.Words

/-!
# Names in the binding

Names that C# reserves are escaped, and the helper for an array is named for its element type and
the number of its elements, the latter in words.
-/

namespace CInterop.Binding

/-- The reserved words of C#. -/
def keywords : List String :=
  ["abstract", "as", "base", "bool", "break", "byte", "case", "catch", "char", "checked", "class",
    "const", "continue", "decimal", "default", "delegate", "do", "double", "else", "enum", "event",
    "explicit", "extern", "false", "finally", "fixed", "float", "for", "foreach", "goto", "if",
    "implicit", "in", "int", "interface", "internal", "is", "lock", "long", "namespace", "new",
    "null", "object", "operator", "out", "override", "params", "private", "protected", "public",
    "readonly", "ref", "return", "sbyte", "sealed", "short", "sizeof", "stackalloc", "static",
    "string", "struct", "switch", "this", "throw", "true", "try", "typeof", "uint", "ulong",
    "unchecked", "unsafe", "ushort", "using", "virtual", "void", "volatile", "while"]

/-- The name as it is written where C# expects a name. -/
def escape (name : String) : String := if keywords.contains name then "@" ++ name else name

/-- The part of a name that stands for a C# type. -/
def identifierPart (typeName : String) : String :=
  let bare := typeName.toList.dropWhile (· == '@')
  let spelled := Text.replaceChar '*' "Ptr".toList bare
  String.ofList (Text.capitalizeFirst (Text.underscored Text.isWordChar spelled))

/-- The name of the helper for an array, if the count has a name in words. -/
def fixedBufferName? (element : String) (count : Int) : Option String :=
  (EnglishWords.cardinal? count).map fun words =>
    "FixedBuffer_" ++ identifierPart element ++ "_" ++ String.intercalate "_" words

end CInterop.Binding
