/-!
# Constant expressions

The expressions a constant macro may be defined by: literals, names, calls, and the unary and binary
operators that work on constants.
-/

namespace CInterop.Macro

/-- An operator before its operand. -/
inductive UnaryOp where
  | minus
  | plus
  | complement
  | not
deriving DecidableEq, Repr

/-- An operator between its operands. -/
inductive BinaryOp where
  | logicalOr
  | logicalAnd
  | bitOr
  | bitXor
  | bitAnd
  | equal
  | notEqual
  | less
  | greater
  | lessEqual
  | greaterEqual
  | shiftLeft
  | shiftRight
  | add
  | sub
  | mul
  | div
  | rem
deriving DecidableEq, Repr

namespace UnaryOp

def symbol : UnaryOp → String
  | minus => "-"
  | plus => "+"
  | complement => "~"
  | not => "!"

def all : List UnaryOp := [minus, plus, complement, not]

/-- The operator written with the given symbol. -/
def ofSymbol? (text : String) : Option UnaryOp := all.find? (·.symbol == text)

theorem ofSymbol?_symbol (op : UnaryOp) : ofSymbol? op.symbol = some op := by
  cases op <;> decide

end UnaryOp

namespace BinaryOp

def symbol : BinaryOp → String
  | logicalOr => "||"
  | logicalAnd => "&&"
  | bitOr => "|"
  | bitXor => "^"
  | bitAnd => "&"
  | equal => "=="
  | notEqual => "!="
  | less => "<"
  | greater => ">"
  | lessEqual => "<="
  | greaterEqual => ">="
  | shiftLeft => "<<"
  | shiftRight => ">>"
  | add => "+"
  | sub => "-"
  | mul => "*"
  | div => "/"
  | rem => "%"

def all : List BinaryOp :=
  [logicalOr, logicalAnd, bitOr, bitXor, bitAnd, equal, notEqual, less, greater, lessEqual,
    greaterEqual, shiftLeft, shiftRight, add, sub, mul, div, rem]

/-- The operator written with the given symbol. -/
def ofSymbol? (text : String) : Option BinaryOp := all.find? (·.symbol == text)

theorem ofSymbol?_symbol (op : BinaryOp) : ofSymbol? op.symbol = some op := by
  cases op <;> decide

/-- How strongly the operator binds; operators of one level associate to the left. -/
def level : BinaryOp → Nat
  | logicalOr => 1
  | logicalAnd => 2
  | bitOr => 3
  | bitXor => 4
  | bitAnd => 5
  | equal | notEqual => 6
  | less | greater | lessEqual | greaterEqual => 7
  | shiftLeft | shiftRight => 8
  | add | sub => 9
  | mul | div | rem => 10

end BinaryOp

/-- An expression; literals keep their spelling. -/
inductive Expr where
  | number (text : String)
  | string (text : String)
  | char (text : String)
  | identifier (name : String)
  | unary (op : UnaryOp) (operand : Expr)
  | binary (left : Expr) (op : BinaryOp) (right : Expr)
  | call (function : String) (arguments : List Expr)
deriving Inhabited

namespace Expr

mutual

/-- The names in an expression from left to right, with repetitions. -/
def identifiers : Expr → List String
  | number _ | string _ | char _ => []
  | identifier name => [name]
  | unary _ operand => identifiers operand
  | binary left _ right => identifiers left ++ identifiers right
  | call function arguments => function :: argumentIdentifiers arguments

/-- The names in a list of arguments. -/
def argumentIdentifiers : List Expr → List String
  | [] => []
  | e :: rest => identifiers e ++ argumentIdentifiers rest

end

/-- Whether a call occurs outside the arguments of calls, that is, anywhere. -/
def hasCall : Expr → Bool
  | call _ _ => true
  | unary _ operand => hasCall operand
  | binary left _ right => hasCall left || hasCall right
  | number _ | string _ | char _ | identifier _ => false

/-- Whether a string literal occurs outside the arguments of calls. -/
def hasString : Expr → Bool
  | string _ => true
  | unary _ operand => hasString operand
  | binary left _ right => hasString left || hasString right
  | number _ | char _ | identifier _ | call _ _ => false

def isString : Expr → Bool
  | string _ => true
  | _ => false

/-- Why a replacement is not a constant. -/
inductive Objection where
  | notAnExpression
  | hasCall
  | mixesStrings
  | unknownName (name : String)
deriving DecidableEq, Repr

/-- The wording of an objection. -/
def Objection.message : Objection → String
  | notAnExpression => "the replacement is not a literal expression"
  | hasCall => "the replacement calls a function or macro"
  | mixesStrings => "the replacement mixes string literals with operators"
  | unknownName name => s!"the replacement references '{name}' which is not a constant"

/-- What speaks against taking the expression for a constant, where `known` are the names of
constants. Nothing does for an expression of literals and known names without calls, in which a
string stands alone or not at all. -/
def objection? (known : List String) : Option Expr → Option Objection
  | none => some .notAnExpression
  | some e =>
    if e.hasCall then some .hasCall
    else if e.hasString && !e.isString then some .mixesStrings
    else (e.identifiers.find? fun name => !known.contains name).map .unknownName

end Expr
end CInterop.Macro
