import CInterop.Extraction.Constant

/-!
# Declarations at the top level of a header

Each declaration is resolved on its own. One that needs a type that cannot be resolved is undone and
reported, and the others go on.
-/

namespace CInterop.Extraction.Build

open FrontEnd Header

/-- A declaration as a whole: if it needs a type that cannot be resolved, all names that were reserved
for it are given up, and a strict run ends. -/
def declaration {α : Type} (c : Setting) (e : Entity) (body : Build α) : Build Unit := fun s =>
  match body s with
  | .ok _ after => .ok () after
  | .error (.unresolved spelling) after =>
    let cause := Cause.unresolvedType spelling e.spelling
    let undone := { after with
      registry := after.registry.cut s.registry.size
      diagnostics := after.diagnostics ++ [⟨cause, some (c.placeText e)⟩] }
    if c.isStrict then .error (.failed (.unresolvedType cause.summary)) undone else .ok () undone
  | .error stop after => .error stop after

/-- Whether the name of a declaration is taken. It is reported unless it is taken by a declaration of
the same kind. -/
def isTaken (c : Setting) (e : Entity) (kind : Kind) : Build Bool := do
  let registry := (← get).registry
  if !registry.has e.spelling then return false
  if (registry.node? e.spelling).all (·.kind ≠ kind) then
    report (.unmappable e.spelling
      "the name is already used by another declaration; this one was skipped") (c.placeText e)
  return true

def parameter (c : Setting) (r : EntityRef) : Build (Parameter String) := do
  let e := c.entity r
  return ⟨e.spelling, ← resolve c e.type⟩

/-- The calling convention of every function. -/
def callingConvention : String := "cdecl"

def function (c : Setting) (e : Entity) : Build Unit := do
  if ← isTaken c e .function then return
  if e.isStatic then detail c s!"Skipping static function: {e.spelling}"
  else
    say s!"Found Function: {e.spelling}"
    let result ← resolve c e.result
    let parameters ← e.parameters.mapM (parameter c)
    let type := c.type e.type
    let isVariadic := type.kind = .prototype && type.isVariadic
    declare ⟨e.spelling, .function result parameters isVariadic callingConvention, c.place? e⟩

def global (c : Setting) (e : Entity) : Build Unit := do
  if e.isStatic then return
  if ← isTaken c e .global then return
  say s!"Found Variable: {e.spelling}"
  let type ← resolve c e.type
  declare ⟨e.spelling, .global type, c.place? e⟩

/-- What a declaration at the top level adds. A struct or a union without a name is reached from the
field or the typedef that it belongs to. -/
def visitKind (c : Setting) (e : Entity) : Build Unit := do
  match e.kind with
  | .function => declaration c e (function c e)
  | .global => declaration c e (global c e)
  | .struct | .union =>
    if isAnonymous e && ((← get).tagNames.lookup e.spot).isNone then return
    declaration c e (resolve c e.type)
  | .enumeration => declaration c e (resolve c e.type)
  | .typedef => declaration c e (typedef c (resolve c) e)
  | .constant => collectMacro c e
  | .enumerator | .other _ => return

/-- What an entity at the top level adds: nothing if it is predefined, in a system header or in a file
to be ignored. -/
def visit (c : Setting) (e : Entity) : Build Unit :=
  if e.file.isNone || e.isInSystemHeader then pure ()
  else if c.ignores e then
    detail c s!"Skipping {e.kind.name} '{e.spelling}' from an ignored file"
  else visitKind c e

/-- The tree of a header. -/
def tree (c : Setting) : Build Declarations := do
  nameTagsByTypedefs c
  c.translation.topLevel.forM (visit c)
  settleMacros c
  return ⟨c.storedPath c.header, c.bitness, (← get).registry.nodes⟩

end CInterop.Extraction.Build
