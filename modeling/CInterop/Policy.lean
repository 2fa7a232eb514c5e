import CInterop.Failure
import CInterop.Text.Blank
import CInterop.Text.Identifier
import CInterop.Text.Words

/-!
# Mapping policy

What the user decides about a binding: the name of the class, which C types are replaced by C# types
of his own, which are left out, and the pointer width if it is not to be that of the header.
-/

namespace CInterop

/-- A C type and the C# type that takes its place. -/
structure Alias where
  source : String
  target : String
deriving DecidableEq, Repr

/-- The user's decisions. No name occurs twice among the ignored ones. -/
structure Policy where
  className : String
  aliases : List Alias := []
  ignored : List String := []
  bitness : Option Int := none
deriving DecidableEq, Repr

namespace Policy

/-- Whether pointers of that many bits are supported. -/
def isBitness (n : Int) : Bool := n = 32 || n = 64

/-- A policy, if its class name is an identifier and its pointer width is supported. -/
def make (className : String) (aliases : List Alias) (ignored : List String)
    (bitness : Option Int) : Except Invalid Policy :=
  if !Text.isIdentifier className then .error (.className className)
  else match bitness with
    | some n =>
      if isBitness n then .ok ⟨className, aliases, ignored.eraseDups, some n⟩
      else .error (.bitness (toString n))
    | none => .ok ⟨className, aliases, ignored.eraseDups, none⟩

/-- The C# type in the place of a C type. The first entry for a name wins. -/
def aliasFor? (p : Policy) (name : String) : Option String :=
  (p.aliases.find? fun a => a.source = name).map (·.target)

def ignores (p : Policy) (name : String) : Bool := p.ignored.contains name

/-- The policy with further aliases, behind the ones it has, and further ignored names. -/
def extend (p : Policy) (aliases : List Alias) (ignored : List String) : Policy :=
  { p with aliases := p.aliases ++ aliases, ignored := (p.ignored ++ ignored).eraseDups }

/-- The parts of a text before and after the first occurrence of a character. -/
def partitionAt? (mark : Char) (cs : List Char) : Option (List Char × List Char) :=
  match cs.span (· != mark) with
  | (before, _ :: after) => some (before, after)
  | (_, []) => none

/-- The alias written as `FROM=TO`; blanks around the two names do not count. -/
def parseAlias (text : String) : Except Invalid Alias :=
  match partitionAt? '=' text.toList with
  | none => .error (.aliasText text)
  | some (source, target) =>
    let source := Text.trimBlanks source
    let target := Text.trimBlanks target
    if source.isEmpty || target.isEmpty then .error (.aliasText text)
    else .ok ⟨String.ofList source, String.ofList target⟩

/-- The part of a path after the last slash. -/
def baseName (path : List Char) : List Char :=
  (path.reverse.takeWhile (· != '/')).reverse

/-- A class name made from the name of a library. -/
def defaultClassName (libraryName : String) : String :=
  let name := Text.underscored Text.isWordChar (baseName libraryName.toList)
  let name := if name.isEmpty then "Bindings".toList else name
  let name := if name.head?.any Text.isDigit then '_' :: name else name
  String.ofList (Text.capitalizeFirst name)

end Policy
end CInterop
