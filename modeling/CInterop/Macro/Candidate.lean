import CInterop.Header.Tree
import CInterop.Macro.Expr.Parser
import CInterop.Macro.Spelling

/-!
# Macros that may be constants

A macro can be a constant if its replacement is an expression over literals and constants before it.
What such a macro evaluates to is asked of the C front end: a source is made that declares one variable
for each macro, with the type of the macro, on a line of its own.
-/

namespace CInterop.Macro

/-- A macro with a replacement. -/
structure Candidate where
  name : String
  replacement : String
  place : Option Header.Place
deriving DecidableEq, Repr

namespace Candidate

def expr? (c : Candidate) : Option Expr := Expr.ofText? c.replacement

/-- Each candidate with what speaks against its replacement. Names are constants after the candidates
that nothing speaks against. -/
def screen (known : List String) : List Candidate → List (Candidate × Option Expr.Objection)
  | [] => []
  | c :: rest =>
    match Expr.objection? known c.expr? with
    | some objection => (c, some objection) :: screen known rest
    | none => (c, none) :: screen (known ++ [c.name]) rest

/-- The name of the file for the source that types the macros. -/
def typingFile : String := "__sharpbindgen_macros.c"

/-- What the names of the variables in that source begin with. -/
def typingMark : String := "__sharpbindgen_"

/-- The name of the variable for a macro. -/
def typingName (name : String) : String := typingMark ++ name

/-- The line that declares the variable for a macro. -/
def typingLine (name : String) : String :=
  s!"static const __typeof__({name}) {typingName name} = {name};"

/-- The lines of the source that types macros of a header. -/
def typingLines (header : String) (names : List String) : List String :=
  s!"#include \"{header}\"" :: names.map typingLine

/-- The source that types macros of a header. -/
def typingSource (header : String) (names : List String) : String :=
  String.join ((typingLines header names).map (· ++ "\n"))

/-- The line of the source on which the first macro is typed, counted from one. -/
def firstTypingLine : Nat := 2

end Candidate
end CInterop.Macro
