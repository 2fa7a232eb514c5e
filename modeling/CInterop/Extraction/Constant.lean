import CInterop.Extraction.Resolution

/-!
# Constants from macros

Macros are collected on the way through the header and judged at its end, when it is known whether they
are defined more than once. A macro becomes a constant if nothing speaks against its replacement, if
it can be typed and if every macro in its replacement became a constant before.
-/

namespace CInterop.Extraction.Build

open FrontEnd Header
open Macro (Candidate joinSpellings)

/-- Takes down a macro at the top level. Macros without a replacement and those with two leading
underscores are passed over, and a macro with parameters is no constant. -/
def collectMacro (c : Setting) (e : Entity) : Build Unit :=
  if "__".toList.isPrefixOf e.spelling.toList then pure ()
  else match e.tokens with
    | [] => pure ()
    | head :: body =>
      if body.head?.any fun t => t.spelling = "(" && t.start = head.stop then
        report (.macroNotConstant e.spelling "function-like macros are not constants")
          (c.placeText e)
      else
        let replacement := joinSpellings (body.map (·.spelling))
        if replacement.isEmpty then pure ()
        else modify fun s =>
          match s.candidates.find? (·.name = e.spelling) with
          | some previous =>
            if previous.replacement = replacement then s
            else { s with redefined := e.spelling :: s.redefined }
          | none =>
            { s with
              candidates := s.candidates ++ [⟨e.spelling, replacement, c.place? e⟩]
              registry := s.registry.reserve e.spelling }

/-- Reports why a macro is no constant. -/
def exclude (c : Setting) (candidate : Candidate) (reason : String) : Build Unit := do
  detail c s!"Excluding macro {candidate.name}: {reason}"
  report (.macroNotConstant candidate.name reason) (Setting.shownPlace candidate.place)

/-- Where the types of constants are looked up. -/
structure TypeRegistry where
  /-- The name of a type, if it can be resolved. -/
  resolveType : TypeRef → Build (Option String)
  /-- The name of the type of strings. -/
  stringType : Build String

/-- The types of a header. -/
def typeRegistry (c : Setting) : TypeRegistry := ⟨fun t => attempt (resolve c t), stringType c⟩

/-- The type of a constant: that of a number, or a string for an array of characters. -/
def constantType? (c : Setting) (types : TypeRegistry) (t : TypeRef) : Build (Option String) :=
  let canonical := c.canonical t
  let info := c.type canonical
  match info.kind with
  | .constantArray | .incompleteArray =>
    match (c.type (c.canonical info.element)).kind with
    | .scalar s => if s.isCharacter then return some (← types.stringType) else return none
    | _ => return none
  | .pointer | .record | .invalid | .prototype | .noPrototype => return none
  | _ => types.resolveType canonical

/-- The path of the source that types the macros: a file beside the header. -/
def typingPath (c : Setting) : String := Path.join c.base Candidate.typingFile

/-- The first error on a line of the source that types the macros. -/
def typingError? (c : Setting) (line : Nat) : Option String :=
  let isHere (m : Message) : Bool :=
    m.isError && m.file = some (typingPath c) && m.line = (line : Int)
  (c.translation.typing.messages.find? isHere).map (·.text)

/-- The type of the variable for a macro; a later variable of the same name counts. -/
def typingType? (c : Setting) (name : String) : Option TypeRef :=
  let typed := (c.translation.typing.top.map c.entity).filter fun e =>
    e.kind = .global && e.spelling = Candidate.typingName name
  typed.getLast?.map (·.type)

/-- The type of a macro as a constant, or why it is none. The macros that became constants before are
given by name, and the line is the one on which the macro is typed. -/
def judge (c : Setting) (types : TypeRegistry) (constants : List String) (line : Nat)
    (candidate : Candidate) : Build (Except String String) := do
  if let some message := typingError? c line then
    return .error s!"the value does not compile ({message})"
  let names := (candidate.expr?.map (·.identifiers)).getD []
  if let some missing := names.find? fun name => !constants.contains name then
    return .error s!"the replacement references the excluded macro '{missing}'"
  let type? ← match typingType? c candidate.name with
    | some t => constantType? c types t
    | none => pure none
  match type? with
  | some type => return .ok type
  | none => return .error "the value is not of a primitive or string type"

/-- The constants among macros that are typed from a line on, after the given constants. -/
def judgeAll (c : Setting) (types : TypeRegistry) (constants : List Declaration) :
    Nat → List Candidate → Build (List Declaration)
  | _, [] => return constants
  | line, candidate :: rest => do
    match ← judge c types (constants.map (·.name)) line candidate with
    | .error reason =>
      exclude c candidate reason
      judgeAll c types constants (line + 1) rest
    | .ok type =>
      detail c s!"Added constant: {candidate.name} = {candidate.replacement} ({type})"
      let node := ⟨candidate.name, .constant type candidate.replacement, candidate.place⟩
      judgeAll c types (constants ++ [node]) (line + 1) rest

/-- Excludes the macros whose replacements cannot be constants and gives the others. -/
def screenAll (c : Setting) : List (Candidate × Option Macro.Expr.Objection) →
    Build (List Candidate)
  | [] => return []
  | (candidate, some objection) :: rest => do
    exclude c candidate objection.message
    screenAll c rest
  | (candidate, none) :: rest => do return candidate :: (← screenAll c rest)

/-- The constants among macros of distinct names. -/
def constants (c : Setting) (types : TypeRegistry) (candidates : List Candidate) :
    Build (List Declaration) := do
  let screened ← screenAll c (Candidate.screen [] candidates)
  if screened.isEmpty then return []
  let header := IgnoreRules.forwardSlashes c.header
  let source := Candidate.typingSource header (screened.map (·.name))
  detail c ("Generated macro typing unit:\n" ++ source)
  ask ⟨typingPath c, c.arguments, requestOptions, some source⟩
  if !c.translation.typing.isReadable then throw (.failed (.unparsable (typingPath c)))
  judgeAll c types [] Candidate.firstTypingLine screened

/-- Declares a macro that became a constant; otherwise its name is free unless something else took it
in the meantime. -/
def settle (accepted : List Declaration) (candidate : Candidate) : Build Unit :=
  match accepted.find? (·.name = candidate.name) with
  | some node => declare node
  | none => modify fun s =>
    if (s.registry.node? candidate.name).isSome then s
    else { s with registry := s.registry.release candidate.name }

/-- Reports the macros that are defined more than once and gives the constants among the others. -/
def judgeMacros (c : Setting) : Build (List Declaration) := do
  let s ← get
  let isRedefined (candidate : Candidate) : Bool := s.redefined.contains candidate.name
  (s.candidates.filter isRedefined).forM fun candidate =>
    report (.macroNotConstant candidate.name
      "the macro is conditionally defined with different values")
      (Setting.shownPlace candidate.place)
  constants c (typeRegistry c) (s.candidates.filter fun candidate => !isRedefined candidate)

/-- Judges all macros that were collected and settles what becomes of their names. -/
def settleMacros (c : Setting) : Build Unit := do
  let s ← get
  let accepted ← judgeMacros c
  s.candidates.forM (settle accepted)

end CInterop.Extraction.Build
