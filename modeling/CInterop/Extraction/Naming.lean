import CInterop.Text.Blank
import CInterop.Text.Words

/-!
# Names of extracted types

A declaration without a name has a spelling that is no name. Type spellings are stored without
qualifiers and with single blanks. Function pointers are named for their signature, in which every type
is written as one capitalised word.
-/

namespace CInterop.Extraction

/-- Whether a spelling is a name: a Latin letter or an underscore, then word characters. A line end at
the end does not count. -/
def isName (spelling : String) : Bool :=
  match spelling.toList with
  | [] => false
  | first :: rest =>
    (first.isAlpha || first == '_') &&
      (if rest.getLast? = some '\n' then rest.dropLast else rest).all Text.isWordChar

/-- The qualifiers that are dropped from a spelling. -/
def qualifiers : List String := ["const", "volatile", "restrict", "__restrict"]

/-- The text without the words that are qualifiers. -/
def withoutQualifiers (cs : List Char) : List Char :=
  ((cs.splitBy fun a b => Text.isWordChar a == Text.isWordChar b).filter fun run =>
    !qualifiers.contains (String.ofList run)).flatten

/-- A type spelling without qualifiers, with single blanks. -/
def cleanSpelling (spelling : String) : String :=
  String.intercalate " " ((Text.words (withoutQualifiers spelling.toList)).map String.ofList)

/-- Whether the text begins with digits and a closing bracket. -/
def startsWithLength (cs : List Char) : Bool :=
  let isDecimal (c : Char) : Bool := (Text.decimalValue? c).isSome
  cs.head?.any isDecimal && (cs.dropWhile isDecimal).head? == some ']'

/-- The text with `Array` in the place of the bracket before a length. -/
def spellLengths : List Char → List Char
  | [] => []
  | c :: rest =>
    (if c = '[' && startsWithLength rest then " Array".toList else [c]) ++ spellLengths rest

/-- A type name as one word: every part capitalised, pointers and array lengths in letters. -/
def pascal (typeName : String) : String :=
  let spelled := spellLengths (Text.replaceChar '*' " Ptr ".toList typeName.toList)
  String.ofList ((Text.runsOf Text.isWordChar spelled).flatMap Text.capitalizeFirst)

/-- The name of the function pointer type with the given signature. -/
def functionPointerName (result : String) (parameters : List String) : String :=
  "FnPtr_" ++ String.intercalate "_" ((result :: parameters).map pascal)

end CInterop.Extraction
