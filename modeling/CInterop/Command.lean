import CInterop.Binding.Source
import CInterop.CommandLine
import CInterop.Document.Printer
import CInterop.Document.Reader
import CInterop.Files
import CInterop.Mapping
import CInterop.Policy.Reader

/-!
# Running a command

A command makes a text and writes it to a file, unless an error was reported on the way. What a run does
is a function of the command line, the files, the answers of the C front end and the names that are
tried for a temporary file; its outcome holds what is shown to the user and the files afterwards.

Bindings are made here of documents whose leaves are texts, integers and truth values where it matters.
No rule keeps a document to these: a size may be a text, and a name may hold half a surrogate pair. What
comes of the other documents is a parameter of a run, and it can be anything that comes of a document, from
a fault to a text that cannot be written.
-/

namespace CInterop.Command

open CommandLine (Extract Bind Invocation Refusal)
open FrontEnd (Translation)
open Header

/-- How a run ends. -/
inductive Ending where
  | exit (code : Nat)
  /-- A fault that the program does not handle. -/
  | fault (fault : Fault)
deriving DecidableEq, Repr

/-- What a run leaves behind. -/
structure Outcome where
  ending : Ending
  output : String := ""
  errorOutput : String := ""
  files : Files
deriving DecidableEq, Repr

/-- What a run has made before anything is written: the text for the file, or why there is none. -/
structure Draft where
  text : Except Failure Files.Content
  diagnostics : List Diagnostic := []
  output : String := ""
  errorOutput : String := ""

/-- The diagnostics as they are shown at the end of a run. -/
def report (diagnostics : List Diagnostic) : String :=
  if diagnostics.isEmpty then ""
  else "Diagnostics:\n" ++ String.join (diagnostics.map fun d => s!"\t{d.text}\n")

/-- Writes a text that was made, unless there are errors. -/
def Draft.store (d : Draft) (text : Files.Content) (output directory : String)
    (marks : List Files.Mark) : Files.Change Unit :=
  if Diagnostic.hasErrors d.diagnostics then pure () else Files.write directory output text marks

/-- The end of a run that nothing has stopped. `product` says what was to be made. -/
def Draft.finish (d : Draft) (product output directory : String) (files : Files) : Outcome :=
  let reported := d.errorOutput ++ report d.diagnostics
  if Diagnostic.hasErrors d.diagnostics then
    ⟨.exit 1, d.output,
      reported ++ s!"Failed to generate {product}: errors were reported, nothing was written.\n",
      files⟩
  else
    let path := Path.absolute directory output
    ⟨.exit 0, d.output ++ s!"\nSuccessfully generated {product} at: {path}\n", reported, files⟩

/-- Ends a run with what was made. -/
def Draft.conclude (d : Draft) (product output directory : String) (files : Files)
    (marks : List Files.Mark) : Outcome :=
  match d.text with
  | .error (.fault fault) => ⟨.fault fault, d.output, d.errorOutput, files⟩
  | .error failure =>
    let message := failure.message?.getD ""
    ⟨.exit 1, d.output,
      d.errorOutput ++ report d.diagnostics ++ s!"An error occurred: {message}\n", files⟩
  | .ok text =>
    match d.store text output directory marks files with
    | .error fault left => ⟨.fault fault, d.output, d.errorOutput, left⟩
    | .ok _ left => d.finish product output directory left

/-! ## The command `ast` -/

/-- How many nodes of which kinds a tree has. -/
def summary (t : Declarations) : String :=
  let count (kind : Kind) : Nat := (t.ofKind kind).length
  s!"\n--- Parsing Summary ---\nRecords: {count .record}, Enums: {count .enumeration}, " ++
    s!"Opaque types: {count .incomplete}\nFunctions: {count .function}, " ++
    s!"Variables: {count .global}, Macros: {count .constant}, Typedefs: {count .typedef}\n" ++
    "-----------------------\n"

/-- Makes the document of a header. -/
def draftDocument (e : Extract) (directory : String) (files : Files) (translation : Translation) :
    Draft :=
  let isFile := (files.read? directory e.options.header).isSome
  let result := Extraction.run e.options directory isFile translation
  let told := match result.tree with
    | .ok tree => summary tree
    | .error _ => ""
  ⟨result.tree.map fun tree => .encodable (Document.write tree), result.diagnostics,
    result.output ++ told, result.errorOutput⟩

/-! ## The command `cs` -/

/-- The text of a file as it is read: every way to end a line is a line feed. -/
def unifyLineEnds : List Char → List Char
  | [] => []
  | '\r' :: '\n' :: rest => '\n' :: unifyLineEnds rest
  | '\r' :: rest => '\n' :: unifyLineEnds rest
  | c :: rest => c :: unifyLineEnds rest

/-- The text of a file, which has to be there. -/
def readText (files : Files) (directory path : String) : Except Failure String :=
  match files.read? directory path with
  | some text => .ok (String.ofList (unifyLineEnds text.toList))
  | none => .error (.invalid (.missingFile path))

/-- The policy of a configuration file or, without one, of the command line alone. -/
def basePolicy (b : Bind) (directory : String) (files : Files) : Except Failure Policy :=
  match b.configuration with
  | none | some "" =>
    let className := match b.className with
      | none | some "" => Policy.defaultClassName b.library
      | some name => name
    (Policy.make className [] [] b.bitness).mapError .invalid
  | some path => do
    Policy.read path (← readText files directory path) b.className b.bitness

/-- The policy for making bindings. -/
def policy (b : Bind) (directory : String) (files : Files) : Except Failure Policy := do
  let base ← basePolicy b directory files
  let aliases ← (b.aliases.mapM Policy.parseAlias).mapError .invalid
  return base.extend aliases b.ignoredTypes

/-- Whether a file that bindings are made from has half a surrogate pair in a text. -/
def hasHalfPair (b : Bind) (directory : String) (files : Files) : Bool :=
  (b.document :: b.configuration.toList).any fun path =>
    (files.read? directory path).any fun text => Json.hasHalfPair false text.toList

/-- What the bindings are made from. There is none, but no failure either, where the document is one that is
not worked on here. -/
def setting (b : Bind) (directory : String) (files : Files) : Except Failure (Option Mapping.Setting) := do
  if hasHalfPair b directory files then return none
  let raw ← Document.read (← readText files directory b.document)
  let policy ← policy b directory files
  return (Document.typed? (Document.shown raw)).map (⟨·, policy⟩)

/-- What comes of a document that is not worked on here. -/
abbrev Elsewhere := Bind → String → Files → Draft

/-- Nothing comes of it. -/
def nowhere : Elsewhere := fun _ _ _ => { text := .error (.fault .illTyped) }

/-- Makes the bindings of a document. -/
def draftBindings (b : Bind) (directory : String) (files : Files) (elsewhere : Elsewhere) : Draft :=
  match setting b directory files with
  | .error failure => { text := .error failure }
  | .ok none => elsewhere b directory files
  | .ok (some s) =>
    let result := Mapping.run s
    let options : Binding.SourceOptions := ⟨b.library, b.namespaceName, some s.tree.file⟩
    { text := result.bindings.map fun bindings => .encodable (bindings.source options)
      diagnostics := result.diagnostics
      output := if b.isVerbose then String.join (result.details.map fun line => s!"DEBUG: {line}\n")
        else "" }

/-! ## The program -/

/-- Makes what is to be made. -/
def draft (invocation : Invocation) (directory : String) (files : Files) (translation : Translation)
    (elsewhere : Elsewhere) : Draft :=
  match invocation with
  | .extract e => draftDocument e directory files translation
  | .bind b => draftBindings b directory files elsewhere

/-- What is to be made, in the words for the user. -/
def product : Invocation → String
  | .extract _ => "abstract syntax tree"
  | .bind _ => "C# bindings"

/-- Runs a command line. Relative paths start at `directory`. One that only asks for help succeeds, and
one that is not understood fails; neither does anything else. -/
def run (args : List String) (directory : String) (files : Files) (translation : Translation)
    (marks : List Files.Mark := Files.Mark.usual) (elsewhere : Elsewhere := nowhere) : Outcome :=
  match CommandLine.read args with
  | .ok invocation =>
    (draft invocation directory files translation elsewhere).conclude (product invocation)
      invocation.output directory files marks
  | .error .help => { ending := .exit 0, files }
  | .error .misuse => { ending := .exit 2, files }

end CInterop.Command
