import CInterop.Extraction.TopLevel
import CInterop.FrontEnd.Arguments

/-!
# Extracting a tree from a header

The C front end reads the header. Its messages are passed on, and an error among them ends the run.
Otherwise the tree is built from what the front end found.
-/

namespace CInterop.Extraction

open FrontEnd Header

/-- What the user asks for. -/
structure Options where
  /-- The path of the header, as given. -/
  header : String
  /-- The pointer width in bits; without one, or with zero, it is that of the host. -/
  bitness? : Option Int := none
  includeDirs : List String := []
  defines : List String := []
  /-- More arguments for the C front end. -/
  extra : List String := []
  /-- The files whose declarations are left out. -/
  ignoredFiles : List String := []
  isStrict : Bool := false
  isVerbose : Bool := false
deriving DecidableEq, Repr

/-- The pointer width of the host in bits. -/
def hostBitness : Int := 64

def Options.bitness (o : Options) : Int :=
  match o.bitness? with
  | none | some 0 => hostBitness
  | some n => n

namespace Build

/-- Has the front end read the header and passes its messages on. -/
def openHeader (c : Setting) : Build Unit := do
  say s!"libclang: Parsing '{c.header}' with the following arguments..."
  say ("\t" ++ String.intercalate " " c.arguments)
  ask ⟨c.header, c.arguments, requestOptions, none⟩
  let answer := c.translation.header
  if !answer.isReadable then throw (.failed (.unparsable c.header))
  if !answer.messages.isEmpty then warn "Clang diagnostics:"
  answer.messages.forM fun m => do
    warn ("\t" ++ m.shown)
    modify fun s => { s with diagnostics := s.diagnostics ++ [⟨.frontEnd m.severity m.shown, none⟩] }
  let errors := answer.messages.filter (·.isError)
  if !errors.isEmpty then throw (.failed (.frontEndErrors (errors.map (·.shown))))

/-- Opens the header and builds its tree. -/
def extraction (c : Setting) : Build Declarations := do
  openHeader c
  tree c

end Build

/-- What came of an extraction: the tree, or why there is none, and what was told on the way. -/
structure Result where
  tree : Except Failure Declarations
  diagnostics : List Diagnostic := []
  output : String := ""
  errorOutput : String := ""
  requests : List Request := []
  /-- The names that types were resolved to, and those that strings were given with. -/
  resolved : List String := []
  strings : List String := []

/-- The result that a state holds. -/
def State.result (s : State) (tree : Except Failure Declarations) : Result :=
  { tree, diagnostics := s.diagnostics, output := String.join s.output
    errorOutput := String.join s.errorOutput, requests := s.requests, resolved := s.resolved
    strings := s.strings }

/-- The failure that a stop amounts to at the end of a run. Every declaration and every macro handles
the types that cannot be resolved, so that only failures are left. -/
def Stop.failure : Stop → Failure
  | unresolved spelling => .unresolvedType spelling
  | failed failure => failure

/-- Extracts a tree. Relative paths start at `directory`, and `isFile` tells whether the header is a
file. -/
def run (options : Options) (directory : String) (isFile : Bool) (translation : Translation) :
    Result :=
  match arguments options.bitness options.includeDirs options.defines options.extra with
  | .error cause => { tree := .error (.invalid cause) }
  | .ok args =>
    if !isFile then { tree := .error (.invalid (.missingFile options.header)) }
    else
      let c : Setting := {
        translation, directory, header := Path.absolute directory options.header
        bitness := options.bitness, arguments := args, rules := ⟨options.ignoredFiles⟩
        isStrict := options.isStrict, isVerbose := options.isVerbose }
      match Build.extraction c {} with
      | .ok tree s => s.result (.ok tree)
      | .error stop s => s.result (.error stop.failure)

end CInterop.Extraction
