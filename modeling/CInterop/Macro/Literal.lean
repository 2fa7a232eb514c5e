import CInterop.Text.Digit

/-!
# Number literals

How a C number literal is spelled in C#: the suffixes `u` and `l` in any combination become `U`, `L`
or `UL`, octal numbers become decimal ones, and the suffix of a `long double` is dropped. The text is
judged by its letters alone, as it need not be a well-formed literal.
-/

namespace CInterop.Macro.Literal

/-- Why a literal has no counterpart. -/
inductive Error where
  /-- A leading zero before something other than octal digits. -/
  | notOctal
  /-- A decimal form longer than is written. -/
  | tooLong
deriving DecidableEq, Repr

/-- The longest decimal form that is written for an octal number, in digits. -/
def maxDigits : Nat := 4300

def isSuffixLetter (c : Char) : Bool := c == 'u' || c == 'U' || c == 'l' || c == 'L'

/-- Whether the text begins with the marker of a hexadecimal or binary number. -/
def hasRadix : List Char → Bool
  | '0' :: c :: _ => c == 'x' || c == 'X' || c == 'b' || c == 'B'
  | _ => false

/-- Whether the last character is the given letter, small or capital. -/
def endsWith (cs : List Char) (letter : Char) : Bool :=
  cs.getLast?.any fun c => c.toLower == letter

/-- Whether the text has a mark of a floating-point number: a point, an exponent letter or the
suffix of a `float`. -/
def looksFloating (cs : List Char) : Bool :=
  cs.contains '.' || cs.any (fun c => c == 'e' || c == 'E') || endsWith cs 'f'

/-- The letters of the integer suffix at the end of the text; a final line break does not hide
them. -/
def integerSuffix (cs : List Char) : List Char :=
  let body := if cs.getLast? = some '\n' then cs.dropLast else cs
  (body.reverse.takeWhile isSuffixLetter).reverse

/-- The value of octal digits. -/
def octalValue (cs : List Char) : Except Error Nat :=
  cs.foldlM (fun n c =>
    match Text.decimalValue? c with
    | some d => if d < 8 then .ok (8 * n + d) else .error .notOctal
    | none => .error .notOctal) 0

/-- Whether digits are read as an octal number: a zero and more digits after it. -/
def isOctal (cs : List Char) : Bool :=
  cs.head? == some '0' && 1 < cs.length && cs.all Text.isDigit

/-- The decimal form of an octal number; other digits stay as they are. -/
def decimalForm (cs : List Char) : Except Error (List Char) := do
  if isOctal cs then
    let n ← octalValue cs
    let text := Nat.toDigits 10 n
    if maxDigits < text.length then .error .tooLong else return text
  else return cs

/-- The suffix for the given letters. -/
def targetSuffix (letters : List Char) : List Char :=
  let unsigned := letters.any fun c => c == 'u' || c == 'U'
  let long := letters.any fun c => c == 'l' || c == 'L'
  (if unsigned then ['U'] else []) ++ (if long then ['L'] else [])

/-- The counterpart of a number literal, with or without the suffix of an integer. -/
def convertChars (cs : List Char) (keepSuffix : Bool) : Except Error (List Char) := do
  if !hasRadix cs && looksFloating cs then
    return if endsWith cs 'l' then cs.dropLast else cs
  let letters := integerSuffix cs
  let body := cs.take (cs.length - letters.length)
  let digits ← if hasRadix cs then pure body else decimalForm body
  return if keepSuffix then digits ++ targetSuffix letters else digits

/-- The counterpart of a number literal, with or without the suffix of an integer. -/
def convert (text : String) (keepSuffix : Bool) : Except Error String :=
  (convertChars text.toList keepSuffix).map String.ofList

end CInterop.Macro.Literal
