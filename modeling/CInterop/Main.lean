import CInterop.Command
import CInterop.FrontEnd.Reader
import CInterop.Json.Parser

/-!
# The program

Reads the files that the command line names, runs it, shows what came of it and writes the result. The
answers of the C front end for a header `h` are taken from the file `h.unit.json`, an object with
the members `unit` and `typing`.
-/

namespace CInterop.Main

open CommandLine (Invocation)

/-- The text of a file, if it can be read. -/
def readIfAny (path : String) : IO (Option String) := do
  try return some (← IO.FS.readFile path)
  catch _ => return none

/-- The paths whose files a run reads. -/
def inputs : Invocation → List String
  | .extract e => [e.options.header]
  | .bind b => b.document :: b.configuration.toList

/-- The files under the given paths, relative to `directory`. -/
def snapshot (directory : String) (paths : List String) : IO Files := do
  let mut texts := []
  for path in paths do
    if let some text ← readIfAny path then
      texts := (Path.absolute directory path, text) :: texts
  return { texts, directories := [directory] }

/-- The recorded answers of the C front end. -/
def recording : Invocation → IO FrontEnd.Translation
  | .bind _ => return {}
  | .extract e => do
    let text ← readIfAny (e.options.header ++ ".unit.json")
    let value := text.elim Json.null fun text => (Json.parse text).toOption.getD .null
    let part (key : String) : Json := (value.get? key).getD .null
    return FrontEnd.Reader.translation (part "unit") (part "typing")

/-- Writes a text beside its place and then moves it there. -/
def writeWhole (path text : String) : IO Unit := do
  IO.FS.createDirAll (Path.parent path)
  let beside := path ++ ".tmp"
  IO.FS.writeFile beside text
  IO.FS.rename beside path

end CInterop.Main

/-- Runs the program in the current directory. -/
def main (args : List String) : IO UInt32 := do
  let directory := (← IO.currentDir).toString
  let (files, translation) ← match CInterop.CommandLine.read args with
    | .ok invocation => do
      pure (← CInterop.Main.snapshot directory (CInterop.Main.inputs invocation),
        ← CInterop.Main.recording invocation)
    | .error _ => pure ({}, {})
  let outcome := CInterop.Command.run args directory files translation
  IO.print outcome.output
  IO.eprint outcome.errorOutput
  for (path, text) in outcome.files.texts do
    if files.text? path ≠ some text then CInterop.Main.writeWhole path text
  match outcome.ending with
  | .exit code => return code.toUInt32
  | .fault _ => return 1
