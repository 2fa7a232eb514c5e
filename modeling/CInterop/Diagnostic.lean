/-!
# Diagnostics

A diagnostic is a cause with an optional place. Severity, code and wording follow from the cause, so
that they are decided here once. Diagnostics are collected in the order in which they arise.
-/

namespace CInterop

/-- How grave a diagnostic is; an error keeps a run from writing its result. -/
inductive Severity where
  | info
  | warning
  | error
deriving DecidableEq, Repr

namespace Severity

def rank : Severity → Nat
  | info => 0
  | warning => 1
  | error => 2

def ofRank? (n : Int) : Option Severity :=
  [info, warning, error].find? fun s => (s.rank : Int) = n

def label : Severity → String
  | info => "Info"
  | warning => "Warning"
  | error => "Error"

theorem ofRank?_rank (s : Severity) : ofRank? s.rank = some s := by
  cases s <;> decide

end Severity

/-- What a diagnostic reports. -/
inductive Cause where
  | plain (severity : Severity) (text : String)
  /-- A message forwarded from the C front end. -/
  | frontEnd (severity : Severity) (text : String)
  | unresolvedType (spelling declaration : String)
  | ignoredTypeUsed (type reason : String)
  | unmappable (name reason : String)
  | macroNotConstant (name reason : String)
  | bitnessMismatch (extracted requested : Int)
  | nameCollision (tag renamed : String)
  | danglingType (type declaration : String)
deriving DecidableEq, Repr

namespace Cause

def severity : Cause → Severity
  | plain s _ | frontEnd s _ => s
  | unresolvedType .. | danglingType .. => .error
  | ignoredTypeUsed .. | unmappable .. | bitnessMismatch .. | nameCollision .. => .warning
  | macroNotConstant .. => .info

/-- The name of the kind of diagnostic. -/
def code : Cause → String
  | plain .. => "Diagnostic"
  | frontEnd .. => "ClangDiagnostic"
  | unresolvedType .. => "UnresolvedTypeReference"
  | ignoredTypeUsed .. => "IgnoredTypeUsed"
  | unmappable .. => "UnmappableConstruct"
  | macroNotConstant .. => "MacroNotConstant"
  | bitnessMismatch .. => "BitnessMismatch"
  | nameCollision .. => "NameCollision"
  | danglingType .. => "DanglingTypeReference"

def summary : Cause → String
  | plain _ text | frontEnd _ text => text
  | unresolvedType spelling declaration =>
    s!"The type '{spelling}' used by '{declaration}' could not be resolved; the declaration was skipped."
  | ignoredTypeUsed type reason =>
    s!"The type '{type}' {reason}, but is used in the abstract syntax tree."
  | unmappable name reason => s!"'{name}': {reason}"
  | macroNotConstant name reason => s!"Macro '{name}' was excluded: {reason}"
  | bitnessMismatch extracted requested =>
    s!"The abstract syntax tree was extracted for {extracted}-bit but is mapped for {requested}-bit; platform dependent integers follow the {requested}-bit table."
  | nameCollision tag renamed =>
    s!"The tag '{tag}' shares its name with another declaration and is emitted as '{renamed}'."
  | danglingType type declaration =>
    s!"'{declaration}' references the type '{type}' which is not in the abstract syntax tree."

end Cause

/-- A cause and the place it concerns, as text. -/
structure Diagnostic where
  cause : Cause
  location : Option String := none
deriving DecidableEq, Repr

namespace Diagnostic

def severity (d : Diagnostic) : Severity := d.cause.severity

/-- The line a diagnostic is shown as; an empty place is left out. -/
def text (d : Diagnostic) : String :=
  let line := s!"[{d.severity.label}] {d.cause.code}: {d.cause.summary}"
  match d.location with
  | none | some "" => line
  | some place => s!"{line} ({place})"

/-- The diagnostics that are at least as grave as `n` says. -/
def atLeast (n : Int) (ds : List Diagnostic) : List Diagnostic :=
  ds.filter fun d => n ≤ (d.severity.rank : Int)

def hasErrors (ds : List Diagnostic) : Bool := ds.any fun d => d.severity == .error

/-- All diagnostics, one a line. -/
def report (ds : List Diagnostic) : String := String.intercalate "\n" (ds.map text)

end Diagnostic
end CInterop
