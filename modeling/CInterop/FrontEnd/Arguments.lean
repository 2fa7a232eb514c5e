import CInterop.Failure

/-!
# Arguments of the C front end

The header is read as C for a target of the wanted pointer width. Arguments of the user come after
the include directories and definitions, and a target among them takes the place of the default.
-/

namespace CInterop.FrontEnd

/-- The name of the target for a pointer width and an operating system. -/
def targetTriple (bitness : Int) (system : String) : String :=
  let architecture := if bitness = 64 then "x86_64" else "i686"
  if system = "Darwin" then architecture ++ "-apple-darwin"
  else if system = "Windows" then architecture ++ "-pc-windows-msvc"
  else architecture ++ "-unknown-linux-gnu"

/-- Whether an argument sets the target. -/
def setsTarget (argument : String) : Bool :=
  argument = "-target" || argument = "--target" ||
    "--target=".toList.isPrefixOf argument.toList

/-- The operating system of the target, unless the user names another one. -/
def hostSystem : String := "Linux"

/-- The arguments for a pointer width, which has to be 32 or 64. -/
def arguments (bitness : Int) (includeDirs defines extra : List String) :
    Except Invalid (List String) :=
  if bitness ≠ 32 ∧ bitness ≠ 64 then .error (.bitness (toString bitness))
  else
    let given := ["-x", "c"] ++ includeDirs.map ("-I" ++ ·) ++ defines.map ("-D" ++ ·) ++ extra
    .ok (if given.any setsTarget then given
      else given ++ ["--target=" ++ targetTriple bitness hostSystem])

end CInterop.FrontEnd
