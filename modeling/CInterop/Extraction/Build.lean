import CInterop.Extraction.Registry
import CInterop.Extraction.Setting
import CInterop.Failure
import CInterop.Macro.Candidate

/-!
# Building a tree

Extraction works on a state: the registry of names, what was decided about tags and macros, and what
was told to the user and to the C front end. A step may stop at a type that cannot be resolved. What
it did until then stands; only the registry is cut back, by the declaration that asked for the type.
-/

namespace CInterop.Extraction

open FrontEnd Header
open Macro (Candidate)

/-- Why there is no result. -/
inductive Stop where
  /-- A type that has no description in a tree. -/
  | unresolved (spelling : String)
  /-- The end of the whole run. -/
  | failed (failure : Failure)
deriving DecidableEq, Repr

/-- What has come of the header so far. -/
structure State where
  registry : Registry := {}
  /-- The names of anonymous tags, by the places of the tags. -/
  tagNames : List ((String × Int × Int) × String) := []
  /-- New names of tags whose own names are taken, by keyword and name. -/
  tagRenames : List ((String × String) × String) := []
  /-- The types for which it was told that they come from an ignored file. -/
  announced : List String := []
  /-- The macros that may be constants, in order. -/
  candidates : List Candidate := []
  /-- The macros with several definitions. -/
  redefined : List String := []
  diagnostics : List Diagnostic := []
  /-- What was written for the user, in pieces, and what was written about errors. -/
  output : List String := []
  errorOutput : List String := []
  /-- What the C front end was asked. -/
  requests : List Request := []
  /-- The names that resolving types has given, the latest first. -/
  resolved : List String := []
  /-- The names that the type of strings was given with, the latest first. -/
  strings : List String := []

/-- A step of building a tree. -/
abbrev Build (α : Type) := EStateM Stop State α

namespace Build

/-- Adds a diagnostic with the place it is about. -/
def report (cause : Cause) (place : String) : Build Unit :=
  modify fun s => { s with diagnostics := s.diagnostics ++ [⟨cause, some place⟩] }

/-- Writes a line for the user. -/
def say (line : String) : Build Unit :=
  modify fun s => { s with output := s.output ++ [line ++ "\n"] }

/-- Writes a line for the user who asked for details. -/
def detail (c : Setting) (line : String) : Build Unit :=
  if c.isVerbose then say ("DEBUG: " ++ line) else pure ()

/-- Writes a line about errors. -/
def warn (line : String) : Build Unit :=
  modify fun s => { s with errorOutput := s.errorOutput ++ [line ++ "\n"] }

/-- Asks the C front end. -/
def ask (request : Request) : Build Unit :=
  modify fun s => { s with requests := s.requests ++ [request] }

/-- Whether a name is reserved. -/
def isReserved (name : String) : Build Bool := do return (← get).registry.has name

def reserve (name : String) : Build Unit :=
  modify fun s => { s with registry := s.registry.reserve name }

def declare (node : Declaration) : Build Unit :=
  modify fun s => { s with registry := s.registry.declare node }

/-- Declares a name unless it is declared, and gives it. -/
def declareOnce (node : Declaration) : Build String := do
  if (← get).registry.node? node.name |>.isNone then declare node
  return node.name

/-- Takes down the name that resolving a type has given. -/
def noteResolved (name : String) : Build Unit :=
  modify fun s => { s with resolved := name :: s.resolved }

/-- Takes down a name that the type of strings was given with. -/
def noteString (name : String) : Build Unit :=
  modify fun s => { s with strings := name :: s.strings }

/-- Tells once that a type comes from an ignored file. -/
def announceIgnored (c : Setting) (e : Entity) (name : String) : Build Unit := do
  if !(← get).announced.contains name && c.ignores e then
    modify fun s => { s with announced := name :: s.announced }
    let path := c.storedPath (e.file.getD "")
    report (.ignoredTypeUsed name s!"belongs to the ignored file '{path}'") (c.placeText e)

/-- The result of a step, or nothing where it cannot resolve a type. -/
def attempt {α : Type} (step : Build α) : Build (Option α) := fun s =>
  match step s with
  | .ok a after => .ok (some a) after
  | .error (.unresolved _) after => .ok none after
  | .error (.failed failure) after => .error (.failed failure) after

end Build
end CInterop.Extraction
