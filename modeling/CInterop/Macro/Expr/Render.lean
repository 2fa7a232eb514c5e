import CInterop.Macro.Expr
import CInterop.Macro.Literal

/-!
# Writing expressions

An expression is written without blanks and with parentheses around every binary operation, so the
reader gets the same tree back. A constant of a given C# type is wrapped into a cast where the
expression alone need not have that type.
-/

namespace CInterop.Macro.Expr

mutual

/-- The written form of an expression. -/
def render : Expr → Except Literal.Error String
  | number text => Literal.convert text true
  | string text => .ok text
  | char text => .ok text
  | identifier name => .ok name
  | unary op operand => do return op.symbol ++ (← render operand)
  | binary left op right => do
    let left ← render left
    let right ← render right
    return "(" ++ left ++ op.symbol ++ right ++ ")"
  | call function arguments => do
    return function ++ "(" ++ String.intercalate "," (← renderAll arguments) ++ ")"

/-- The written forms of arguments. -/
def renderAll : List Expr → Except Literal.Error (List String)
  | [] => .ok []
  | e :: rest => do
    let first ← render e
    return first :: (← renderAll rest)

end

/-- The initial value of a constant of the given C# type. A number literal is taken to fit that type;
other integer expressions are cast without an overflow check. -/
def renderConstant (type : String) (e : Expr) : Except Literal.Error String :=
  if type = "string" then render e
  else match e with
    | string text => .ok text
    | char text => .ok text
    | number text => Literal.convert text false
    | e =>
      if type = "float" || type = "double" then do
        return "(" ++ type ++ ")(" ++ (← render e) ++ ")"
      else do
        return "unchecked((" ++ type ++ ")(" ++ (← render e) ++ "))"

end CInterop.Macro.Expr
