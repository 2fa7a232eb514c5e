import CInterop.Macro.Expr
import CInterop.Macro.Token

/-!
# Reading expressions

Binary operators are read by climbing: an operand is followed by all operators that bind at least as
strongly as required, each with a right operand that binds more strongly. Nothing is ever read
twice, and a list of tokens that is not one whole expression has no reading.
-/

namespace CInterop.Macro.Expr

/-- The text between the quotes of a literal. -/
def unquoted (text : String) : List Char := (text.toList.drop 1).dropLast

/-- Adjacent string literals: the texts between their quotes, and the tokens after them. -/
def adjacentStrings : List Token → List Char × List Token
  | ⟨.string, text⟩ :: rest =>
    let (more, after) := adjacentStrings rest
    (unquoted text ++ more, after)
  | tokens => ([], tokens)

/-- The binary operator at the head of the tokens, if it binds at least as strongly as `least`. -/
def binaryOperator? (least : Nat) : List Token → Option (BinaryOp × List Token)
  | ⟨.operator, text⟩ :: rest =>
    (BinaryOp.ofSymbol? text).bind fun op => if op.level < least then none else some (op, rest)
  | _ => none

mutual

/-- A literal, a name, a call, an expression in parentheses, or a unary operator with its operand. -/
def primary : Nat → List Token → Option (Expr × List Token)
  | 0, _ => none
  | n + 1, tokens =>
    match tokens with
    | [] => none
    | ⟨.number, text⟩ :: rest => some (number text, rest)
    | ⟨.char, text⟩ :: rest => some (char text, rest)
    | ⟨.string, _⟩ :: _ =>
      let (inner, rest) := adjacentStrings tokens
      some (string (String.ofList ('"' :: (inner ++ ['"']))), rest)
    | ⟨.identifier, name⟩ :: ⟨.paren, "("⟩ :: ⟨.paren, ")"⟩ :: rest => some (call name [], rest)
    | ⟨.identifier, name⟩ :: ⟨.paren, "("⟩ :: rest => do
      let (arguments, rest) ← arguments n rest
      some (call name arguments, rest)
    | ⟨.identifier, name⟩ :: rest => some (identifier name, rest)
    | ⟨.paren, "("⟩ :: rest => do
      let (inner, rest) ← expression n 0 rest
      match rest with
      | ⟨.paren, ")"⟩ :: rest => some (inner, rest)
      | _ => none
    | ⟨.operator, text⟩ :: rest => do
      let op ← UnaryOp.ofSymbol? text
      let (operand, rest) ← primary n rest
      some (unary op operand, rest)
    | _ => none

/-- An operand and all operators after it that bind at least as strongly as `least`. -/
def expression : Nat → Nat → List Token → Option (Expr × List Token)
  | 0, _, _ => none
  | n + 1, least, tokens => do
    let (left, rest) ← primary n tokens
    climb n least left rest

/-- Goes on from `left` with the operators that bind at least as strongly as `least`. -/
def climb : Nat → Nat → Expr → List Token → Option (Expr × List Token)
  | 0, _, _, _ => none
  | n + 1, least, left, tokens =>
    match binaryOperator? least tokens with
    | none => some (left, tokens)
    | some (op, rest) => do
      let (right, rest) ← expression n (op.level + 1) rest
      climb n least (binary left op right) rest

/-- The arguments of a call from the next one on, with the closing parenthesis. -/
def arguments : Nat → List Token → Option (List Expr × List Token)
  | 0, _ => none
  | n + 1, tokens => do
    let (argument, rest) ← expression n 0 tokens
    match rest with
    | ⟨.paren, ")"⟩ :: rest => some ([argument], rest)
    | ⟨.comma, ","⟩ :: rest =>
      let (others, rest) ← arguments n rest
      some (argument :: others, rest)
    | _ => none

end

/-- The expression a list of tokens is, if it is one as a whole. Every third step at the latest takes
a token, which bounds the depth. -/
def ofTokens? (tokens : List Token) : Option Expr :=
  match expression (3 * tokens.length + 3) 0 tokens with
  | some (e, []) => some e
  | _ => none

/-- The expression a text is. -/
def ofText? (text : String) : Option Expr := ofTokens? (Token.ofText text)

end CInterop.Macro.Expr
