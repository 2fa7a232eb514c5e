import CInterop.Json.Basic

/-!
# Reading JSON

A recursive reader over the characters of the text. A failure names its cause and the text that was
left at the place it points to, from which `Json.parse` computes line, column and offset. The reader
accepts exactly one value between blanks.
-/

namespace CInterop.Json

/-- What can be wrong with a text. -/
inductive Fault where
  | byteOrderMark
  | expectingValue
  | expectingPropertyName
  | expectingColon
  | expectingComma
  | extraData
  | controlCharacter
  | unterminatedString
  | badEscape
  | badUnicodeEscape
  /-- An integer longer than the reader is willing to convert. -/
  | tooManyDigits
deriving DecidableEq, Repr

/-- The wording of a fault. -/
def Fault.message : Fault → String
  | byteOrderMark => "Unexpected UTF-8 BOM (decode using utf-8-sig)"
  | expectingValue => "Expecting value"
  | expectingPropertyName => "Expecting property name enclosed in double quotes"
  | expectingColon => "Expecting ':' delimiter"
  | expectingComma => "Expecting ',' delimiter"
  | extraData => "Extra data"
  | controlCharacter => "Invalid control character at"
  | unterminatedString => "Unterminated string starting at"
  | badEscape => "Invalid \\escape"
  | badUnicodeEscape => "Invalid \\uXXXX escape"
  | tooManyDigits => "Integer with too many digits"

/-- A fault and the text left where it was found. -/
structure Failure where
  fault : Fault
  rest : List Char

/-- The reader stops at `rest`. -/
def fail {α : Type} (fault : Fault) (rest : List Char) : Except Failure α := .error ⟨fault, rest⟩

/-! ## Lexical parts -/

def isSpace (c : Char) : Bool := c == ' ' || c == '\t' || c == '\n' || c == '\r'

def skipSpace (cs : List Char) : List Char := cs.dropWhile isSpace

/-- The value of a hexadecimal digit. -/
def hexValue? (c : Char) : Option Nat :=
  if c.isDigit then some (c.toNat - '0'.toNat)
  else if 'a' ≤ c ∧ c ≤ 'f' then some (c.toNat - 'a'.toNat + 10)
  else if 'A' ≤ c ∧ c ≤ 'F' then some (c.toNat - 'A'.toNat + 10)
  else none

/-- The four hexadecimal digits of an escape; they cannot be the last characters of the text. -/
def hex4? : List Char → Option (Nat × List Char)
  | a :: b :: c :: d :: rest => do
    if rest.isEmpty then none
    let a ← hexValue? a
    let b ← hexValue? b
    let c ← hexValue? c
    let d ← hexValue? d
    some (((a * 16 + b) * 16 + c) * 16 + d, rest)
  | _ => none

def isHighSurrogate (n : Nat) : Bool := 0xD800 ≤ n && n ≤ 0xDBFF
def isLowSurrogate (n : Nat) : Bool := 0xDC00 ≤ n && n ≤ 0xDFFF

/-- The character of a code unit that stands alone; half a surrogate pair is replaced. -/
def unitChar (n : Nat) : Char :=
  if isHighSurrogate n || isLowSurrogate n then Char.ofNat 0xFFFD else Char.ofNat n

def pairChar (high low : Nat) : Char :=
  Char.ofNat (0x10000 + (high - 0xD800) * 0x400 + (low - 0xDC00))

/-- The character of a `\u` escape, from the text that begins with the `u`. The two halves of a
surrogate pair make one character. -/
def unicodeEscape (fromU : List Char) : Except Failure (Char × List Char) :=
  match hex4? (fromU.drop 1) with
  | none => fail .badUnicodeEscape fromU
  | some (high, rest) =>
    match rest with
    | '\\' :: 'u' :: digits =>
      if isHighSurrogate high && 4 < digits.length then
        match hex4? digits with
        | none => fail .badUnicodeEscape ('u' :: digits)
        | some (low, after) =>
          if isLowSurrogate low then .ok (pairChar high low, after) else .ok (unitChar high, rest)
      else .ok (unitChar high, rest)
    | _ => .ok (unitChar high, rest)

/-- Whether a text has an escape for half a surrogate pair whose other half does not follow at once. Such
an escape stands for no character. `pending` says whether a first half has come right before. -/
def hasHalfPair (pending : Bool) : List Char → Bool
  | '\\' :: 'u' :: a :: b :: c :: d :: rest =>
    let unit := (hex4? (a :: b :: c :: d :: rest)).elim 0 (·.1)
    if isLowSurrogate unit then !pending || hasHalfPair false rest
    else pending || hasHalfPair (isHighSurrogate unit) rest
  | '\\' :: _ :: rest => pending || hasHalfPair false rest
  | _ :: rest => pending || hasHalfPair false rest
  | [] => pending

/-- The character of a one-letter escape. -/
def simpleEscape? : Char → Option Char
  | '"' => some '"'
  | '\\' => some '\\'
  | '/' => some '/'
  | 'b' => some '\x08'
  | 'f' => some '\x0c'
  | 'n' => some '\n'
  | 'r' => some '\r'
  | 't' => some '\t'
  | _ => none

/-- The characters of a string after its opening quote. `opening` is the text from that quote on,
`before` what was read already, last character first. -/
def stringBody (opening : List Char) :
    Nat → List Char → List Char → Except Failure (String × List Char)
  | 0, _, _ => fail .unterminatedString opening
  | _ + 1, _, [] => fail .unterminatedString opening
  | _ + 1, before, '"' :: rest => .ok (String.ofList before.reverse, rest)
  | _ + 1, _, ['\\'] => fail .unterminatedString opening
  | n + 1, before, '\\' :: 'u' :: rest =>
    match unicodeEscape ('u' :: rest) with
    | .error failure => .error failure
    | .ok (c, rest) => stringBody opening n (c :: before) rest
  | n + 1, before, '\\' :: e :: rest =>
    match simpleEscape? e with
    | none => fail .badEscape ('\\' :: e :: rest)
    | some c => stringBody opening n (c :: before) rest
  | n + 1, before, c :: rest =>
    if c.toNat ≤ 0x1F then fail .controlCharacter (c :: rest)
    else stringBody opening n (c :: before) rest

/-- A string, from the text after its opening quote. -/
def string (rest : List Char) : Except Failure (String × List Char) :=
  stringBody ('"' :: rest) (rest.length + 1) [] rest

/-- The value of a run of decimal digits. -/
def digitsValue (cs : List Char) : Nat :=
  cs.foldl (fun n c => 10 * n + (c.toNat - '0'.toNat)) 0

def digits (cs : List Char) : List Char × List Char := cs.span Char.isDigit

/-- The fraction of a number: a point and at least one digit. -/
def fraction? : List Char → Option (List Char × List Char)
  | '.' :: rest =>
    let (ds, rest) := digits rest
    if ds.isEmpty then none else some (ds, rest)
  | _ => none

/-- The exponent of a number: a letter, an optional sign and at least one digit. -/
def exponent? : List Char → Option (Int × List Char)
  | e :: rest =>
    if e == 'e' || e == 'E' then
      let (negative, rest) := match rest with
        | '-' :: rest => (true, rest)
        | '+' :: rest => (false, rest)
        | rest => (false, rest)
      let (ds, rest) := digits rest
      if ds.isEmpty then none
      else some (if negative then -(digitsValue ds : Int) else digitsValue ds, rest)
    else none
  | [] => none

/-- The longest integer that is converted, in digits. -/
def maxIntegerDigits : Nat := 4300

/-- A number without its sign, from its first digit on. -/
def unsignedNumber (negative : Bool) (start whole rest : List Char) : Except Failure (Json × List Char) :=
  match fraction? rest, exponent? ((fraction? rest).elim rest (·.2)) with
  | none, none =>
    if maxIntegerDigits < whole.length then fail .tooManyDigits start
    else
      let n : Int := digitsValue whole
      .ok (.int (if negative then -n else n), rest)
  | fraction, exponent =>
    let fractionDigits := fraction.elim [] (·.1)
    let afterFraction := fraction.elim rest (·.2)
    let all := whole ++ fractionDigits
    let power := exponent.elim 0 (·.1) - fractionDigits.length
    let x := Binary64.ofDecimal (digitsValue all) (all.dropWhile (· == '0')).length power
    .ok (.real (if negative then x.neg else x), exponent.elim afterFraction (·.2))

/-- A number, where `cs` is the text after the sign. -/
def number (negative : Bool) (start cs : List Char) : Except Failure (Json × List Char) :=
  match cs with
  | '0' :: rest => unsignedNumber negative start ['0'] rest
  | c :: _ =>
    if c.isDigit then
      let (whole, rest) := digits cs
      unsignedNumber negative start whole rest
    else fail .expectingValue start
  | [] => fail .expectingValue start

/-- The text after a given word, if the text begins with it. -/
def afterWord? : List Char → List Char → Option (List Char)
  | [], cs => some cs
  | w :: ws, c :: cs => if w = c then afterWord? ws cs else none
  | _ :: _, [] => none

/-- A value other than a string, an array or an object. -/
def atom (cs : List Char) : Except Failure (Json × List Char) :=
  match afterWord? "null".toList cs with
  | some rest => .ok (.null, rest)
  | none =>
  match afterWord? "true".toList cs with
  | some rest => .ok (.bool true, rest)
  | none =>
  match afterWord? "false".toList cs with
  | some rest => .ok (.bool false, rest)
  | none =>
  match afterWord? "NaN".toList cs with
  | some rest => .ok (.real .nan, rest)
  | none =>
  match afterWord? "Infinity".toList cs with
  | some rest => .ok (.real .infinity, rest)
  | none =>
  match afterWord? "-Infinity".toList cs with
  | some rest => .ok (.real Binary64.infinity.neg, rest)
  | none =>
  match cs with
  | '-' :: rest => number true cs rest
  | _ => number false cs cs

/-! ## Values

Of two steps of the three mutually recursive readers at least one takes a character, so twice the number
of characters left bounds their depth. -/

mutual

/-- One value. -/
def value : Nat → List Char → Except Failure (Json × List Char)
  | 0, cs => fail .expectingValue cs
  | n + 1, cs =>
    match cs with
    | '"' :: rest => do
      let (text, rest) ← string rest
      return (.str text, rest)
    | '[' :: rest =>
      match skipSpace rest with
      | ']' :: rest => .ok (.arr [], rest)
      | rest => do
        let (items, rest) ← items n rest
        return (.arr items, rest)
    | '{' :: rest =>
      match skipSpace rest with
      | '}' :: rest => .ok (.obj [], rest)
      | rest => do
        let (members, rest) ← members n [] rest
        return (.obj members, rest)
    | _ => atom cs

/-- The items of an array from the next one on, with the closing bracket. -/
def items : Nat → List Char → Except Failure (List Json × List Char)
  | 0, cs => fail .expectingValue cs
  | n + 1, cs => do
    let (item, rest) ← value n cs
    match skipSpace rest with
    | ']' :: rest => return ([item], rest)
    | ',' :: rest =>
      let (others, rest) ← items n (skipSpace rest)
      return (item :: others, rest)
    | rest => fail .expectingComma rest

/-- The members of an object from the next one on, with the closing brace. -/
def members : Nat → List (String × Json) → List Char → Except Failure (List (String × Json) × List Char)
  | 0, _, cs => fail .expectingPropertyName cs
  | n + 1, before, cs =>
    match cs with
    | '"' :: rest => do
      let (key, rest) ← string rest
      match skipSpace rest with
      | ':' :: rest =>
        let (item, rest) ← value n (skipSpace rest)
        let before := insertMember key item before
        match skipSpace rest with
        | '}' :: rest => return (before, rest)
        | ',' :: rest => members n before (skipSpace rest)
        | rest => fail .expectingComma rest
      | rest => fail .expectingColon rest
    | _ => fail .expectingPropertyName cs

end

/-! ## Texts -/

/-- Where a text cannot be read, and why. -/
structure Error where
  fault : Fault
  line : Nat
  column : Nat
  offset : Nat
deriving DecidableEq, Repr

/-- The wording of an error: the fault, then line and column from one and the offset from zero. -/
def Error.message (e : Error) : String :=
  s!"{e.fault.message}: line {e.line} column {e.column} (char {e.offset})"

/-- The error at the place where `left` characters of the text are left. -/
def Error.locate (text : List Char) (fault : Fault) (left : Nat) : Error :=
  let offset := text.length - left
  let before := text.take offset
  { fault
    line := before.count '\n' + 1
    column := (before.reverse.takeWhile (· != '\n')).length + 1
    offset }

/-- One value and nothing else, between blanks. -/
def readText (text : List Char) : Except Failure Json := do
  if text.head? = some '\uFEFF' then
    throw ⟨.byteOrderMark, text⟩
  let (v, rest) ← value (2 * text.length + 1) (skipSpace text)
  match skipSpace rest with
  | [] => return v
  | rest => throw ⟨.extraData, rest⟩

/-- The value a text denotes. -/
def parse (text : String) : Except Error Json :=
  match readText text.toList with
  | .ok v => .ok v
  | .error failure => .error (.locate text.toList failure.fault failure.rest.length)

end CInterop.Json
