import CInterop.Binding.Declaration

/-!
# C# source text

A binding is written as one static class. Declarations are grouped (functions, variables, constants,
types) with their order kept inside each group, and of several declarations with one name only the
first is written. The text depends on nothing but the declarations and the options.
-/

namespace CInterop.Binding

/-- What the source text needs to know beside the declarations. -/
structure SourceOptions where
  libraryName : String
  /-- The namespace of the class; absent or empty for none. -/
  namespaceName : Option String := none
  /-- The header named in the opening comment; absent or empty for none. -/
  headerName : Option String := none
deriving DecidableEq, Repr

namespace Source

/-- Lines of text, without line breaks. -/
abbrev Lines := List String

/-- The attribute of a struct with explicit layout; a size or an alignment of zero is left out. -/
def explicitLayout (size align : Int) : String :=
  let arguments := ["LayoutKind.Explicit"] ++ (if 0 < size then [s!"Size = {size}"] else [])
    ++ (if 0 < align then [s!"Pack = {align}"] else [])
  "[StructLayout(" ++ String.intercalate ", " arguments ++ ")]"

def sequentialLayout : String := "[StructLayout(LayoutKind.Sequential)]"

/-- The declaration of a field of the given name. -/
def member (t : TypeUse) (name : String) : String :=
  match t.count with
  | some count => s!"public fixed {t.name} {name}[{count}];"
  | none => s!"public {t.name} {name};"

/-- A line one level further in. -/
def indent (line : String) : String := "    " ++ line

/-- A line one level further in; an empty line stays empty. -/
def indentText (line : String) : String := if line = "" then "" else indent line

/-- The lines of several blocks with an empty line between each two. -/
def separated : List Lines → Lines
  | [] => []
  | [block] => block
  | block :: rest => block ++ [""] ++ separated rest

/-- The two lines of a field. -/
def field (f : Field) : Lines :=
  [s!"[FieldOffset({f.offset})] // size = {f.type.size}, padding = {f.padding}", member f.type f.name]

/-- A struct with a single field `Data` and, unless the field is a fixed buffer, conversions in both
directions. -/
def aliasStruct (name : String) (underlying : TypeUse) : Lines :=
  [explicitLayout underlying.size underlying.align, s!"public struct {name}", "\x7b",
    indent s!"[FieldOffset(0)] // size = {underlying.size}, padding = 0",
    indent (member underlying "Data")] ++
  (if underlying.isFixedBuffer then []
   else ["",
    indent s!"public static implicit operator {underlying.name}({name} data) => data.Data;",
    indent s!"public static implicit operator {name}({underlying.name} data) => new() \x7b Data = data \x7d;"])
  ++ ["\x7d"]

/-- The lines of a declaration below its comment. -/
def body (name : String) : Body → Lines
  | .function result parameters convention =>
    let list := String.intercalate ", " (parameters.map fun p => s!"{p.type.name} {p.name}")
    [s!"[DllImport(LibraryName, CallingConvention = CallingConvention.{convention})]",
      s!"public static extern {result.name} {name}({list});"]
  | .functionPointer result parameters convention =>
    let list := String.intercalate ", " (parameters.map (·.type.name) ++ [result.name])
    [sequentialLayout, s!"public struct {name}", "\x7b",
      indent s!"public delegate* unmanaged[{convention}]<{list}> Pointer;", "\x7d"]
  | .struct fields size align =>
    [explicitLayout size align, s!"public struct {name}", "\x7b"] ++
      separated (fields.map fun f => (field f).map indent) ++ ["\x7d"]
  | .incomplete => [sequentialLayout, s!"public struct {name}", "\x7b", "\x7d"]
  | .enumeration integerType values =>
    [s!"public enum {name} : {integerType.name}", "\x7b"] ++
      values.map (fun v => indent s!"{v.name} = {v.value},") ++ ["\x7d"]
  | .aliasStruct underlying => aliasStruct name underlying
  | .fixedBuffer element count _ =>
    [sequentialLayout, s!"public struct {name}", "\x7b"] ++
      (List.range count.toNat).map (fun i => indent (member element s!"Element{i}")) ++ ["\x7d"]
  | .constant type value => [s!"public const {type} {name} = {value};"]
  | .global symbol type =>
    [s!"public static ref {type.name} {name} => ref *({type.name}*)NativeLibrary.GetExport(LibraryHandle, \"{symbol}\");"]

/-- The lines of a declaration. -/
def declaration (d : Declaration) : Lines :=
  (if d.comment = "" then [] else ["// " ++ d.comment]) ++ body d.name d.body

/-- The property through which variables reach the loaded library. -/
def libraryHandle (className : String) : Lines :=
  ["private static IntPtr _libraryHandle;", "", "private static IntPtr LibraryHandle", "\x7b",
    "    get", "    \x7b", "        if (_libraryHandle == IntPtr.Zero)", "        \x7b",
    s!"            _libraryHandle = NativeLibrary.Load(LibraryName, typeof({className}).Assembly, null);",
    "        \x7d", "        return _libraryHandle;", "    \x7d", "\x7d"]

/-- The declarations whose name occurs for the first time and is not among `before`. -/
def firstOf (before : List String) : List Declaration → List Declaration
  | [] => []
  | d :: rest =>
    if before.contains d.name then firstOf before rest else d :: firstOf (d.name :: before) rest

/-- The groups in the order in which they are written. -/
inductive Group where
  | functions
  | globals
  | constants
  | types
deriving DecidableEq, Repr

def Group.ofKind : Kind → Group
  | .function => functions
  | .global => globals
  | .constant => constants
  | _ => types

/-- The declarations that belong to a group. -/
def inGroup (g : Group) (ds : List Declaration) : List Declaration :=
  ds.filter fun d => Group.ofKind d.kind = g

/-- The declarations in the order in which they are written. -/
def ordered (ds : List Declaration) : List Declaration :=
  inGroup .functions ds ++ inGroup .globals ds ++ inGroup .constants ds ++ inGroup .types ds

/-- The blocks of the class. -/
def blocks (options : SourceOptions) (b : Bindings) : List Lines :=
  let kept := firstOf [] b.declarations
  [[s!"private const string LibraryName = \"{options.libraryName}\";"]] ++
    (if (inGroup .globals kept).isEmpty then [] else [libraryHandle b.className]) ++
    (ordered kept).map declaration

/-- The lines before the class. -/
def opening (options : SourceOptions) : Lines :=
  let source := match options.headerName with
    | none | some "" => ""
    | some name => s!" from '{name}'"
  ["// <auto-generated>", s!"//  This code was generated by sharpbindgen{source}.",
    "//  Changes to this file will be lost when the code is regenerated.", "// </auto-generated>",
    "", "#nullable enable", "using System;", "using System.Runtime.InteropServices;", ""] ++
  (match options.namespaceName with
    | none | some "" => []
    | some name => [s!"namespace {name};", ""])

/-- All lines of the source text. -/
def lines (options : SourceOptions) (b : Bindings) : Lines :=
  opening options ++ [s!"public static unsafe partial class {b.className}", "\x7b"] ++
    separated ((blocks options b).map (·.map indentText)) ++ ["\x7d"]

end Source

/-- The source text of a binding. -/
def Bindings.source (b : Bindings) (options : SourceOptions) : String :=
  String.intercalate "\n" (Source.lines options b) ++ "\n"

end CInterop.Binding
