import CInterop.Text.Blank
import CInterop.Text.Digit

/-!
# Tokens of a macro's replacement text

The text is cut from left to right. Blanks separate tokens and belong to none; everything else
belongs to exactly one, so that no text is refused: a literal without its closing quote reaches to
the end, and a character that starts nothing else is an operator.
-/

namespace CInterop.Macro

/-- The sort of a token. -/
inductive TokenKind where
  | identifier
  | number
  | string
  | char
  | operator
  | paren
  | comma
deriving DecidableEq, Repr

/-- A token with its spelling. -/
structure Token where
  kind : TokenKind
  text : String
deriving DecidableEq, Repr

namespace Token

/-- The rest of a quoted literal after its opening quote, through the closing one, and what follows.
A backslash takes the next character with it. -/
def quotedTail (quote : Char) : List Char → List Char × List Char
  | [] => ([], [])
  | ['\\'] => (['\\'], [])
  | '\\' :: c :: rest =>
    let (taken, after) := quotedTail quote rest
    ('\\' :: c :: taken, after)
  | c :: rest =>
    if c = quote then ([c], rest)
    else
      let (taken, after) := quotedTail quote rest
      (c :: taken, after)

/-- Whether a sign after `c` continues a number: only behind an exponent letter. -/
def isExponentLetter (c : Char) : Bool := c == 'e' || c == 'E' || c == 'p' || c == 'P'

/-- The rest of a number after the character `previous`. Suffixes and exponents belong to the
number; in a hexadecimal one no sign does. -/
def numberTail (hexadecimal : Bool) (previous : Char) : List Char → List Char × List Char
  | [] => ([], [])
  | c :: rest =>
    if isAlphanumeric c || c == '.' ||
        ((c == '+' || c == '-') && isExponentLetter previous && !hexadecimal) then
      let (taken, after) := numberTail hexadecimal c rest
      (c :: taken, after)
    else ([], c :: rest)
where
  isAlphanumeric := Text.isAlphanumeric

/-- The rest of an identifier after its first character. -/
def wordTail (cs : List Char) : List Char × List Char := cs.span Text.isWordChar

/-- Whether the text begins with a hexadecimal marker. -/
def startsHexadecimal : List Char → Bool
  | '0' :: x :: _ => x == 'x' || x == 'X'
  | _ => false

/-- Whether `c` with the text after it starts a number: a digit, or a point before a digit. -/
def startsNumber (c : Char) (rest : List Char) : Bool :=
  Text.isDigit c || (c == '.' && rest.head?.any Text.isDigit)

/-- Whether two characters form one operator. -/
def isPairOperator (a b : Char) : Bool :=
  [('<', '<'), ('>', '>'), ('<', '='), ('>', '='), ('=', '='), ('!', '='), ('&', '&'), ('|', '|')].contains
    (a, b)

/-- The kind of a token that consists of the single character `c`. -/
def singleKind (c : Char) : TokenKind :=
  if c == '(' || c == ')' then .paren else if c == ',' then .comma else .operator

/-- The token that begins with the character `c`, which is no blank, and the text after it. -/
def next (c : Char) (rest : List Char) : Token × List Char :=
  let make (kind : TokenKind) (parts : List Char × List Char) : Token × List Char :=
    (⟨kind, String.ofList (c :: parts.1)⟩, parts.2)
  if Text.isLetter c || c == '_' then make .identifier (wordTail rest)
  else if startsNumber c rest then make .number (numberTail (startsHexadecimal (c :: rest)) c rest)
  else if c == '"' then make .string (quotedTail '"' rest)
  else if c == '\'' then make .char (quotedTail '\'' rest)
  else match rest with
    | d :: after =>
      if isPairOperator c d then make .operator ([d], after) else make (singleKind c) ([], rest)
    | [] => make (singleKind c) ([], [])

/-- The tokens of a text with at most the given number of steps; every step takes a character. -/
def scan : Nat → List Char → List Token
  | 0, _ => []
  | _ + 1, [] => []
  | n + 1, c :: rest =>
    if Text.isBlank c then scan n rest
    else
      let (token, after) := next c rest
      token :: scan n after

/-- The tokens of a text. -/
def ofText (text : String) : List Token := scan text.toList.length text.toList

end Token
end CInterop.Macro
