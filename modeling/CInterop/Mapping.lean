import CInterop.Mapping.Declaration

/-!
# Mapping a tree to a binding

The nodes are mapped one after the other. A node that refers to a missing type is left out as a
whole, together with the helpers that were declared for it, and reported.
-/

namespace CInterop.Mapping

open Header

/-- What has come of the nodes so far. -/
structure Progress where
  declarations : List Binding.Declaration := []
  /-- The names for which a report was made that is not to be repeated. -/
  reported : List String := []
  diagnostics : List Diagnostic := []
  /-- Lines for the user who asked for details. -/
  details : List String := []

namespace Progress

/-- Whether a helper of that name is declared. -/
def hasHelper (p : Progress) (name : String) : Bool :=
  p.declarations.any fun d => d.kind = .fixedBuffer && d.name = name

def report (p : Progress) (d : Diagnostic) : Progress := { p with diagnostics := p.diagnostics ++ [d] }

def detail (p : Progress) (line : String) : Progress := { p with details := p.details ++ [line] }

def declare (p : Progress) (d : Binding.Declaration) : Progress :=
  { p with declarations := p.declarations ++ [d] }

/-- What an event adds. -/
def apply (p : Progress) : Event → Progress
  | .report d => p.report d
  | .reportOnce name d =>
    if p.reported.contains name then p else { p.report d with reported := name :: p.reported }
  | .helper d => if p.hasHelper d.name then p else p.declare d

/-- What a list of events adds. -/
def applyAll (p : Progress) (events : List Event) : Progress := events.foldl apply p

end Progress

/-- Whether a node is spelled where it is used and never declared. -/
def isInline (node : Declaration) : Bool :=
  match node.kind with
  | .primitive | .pointer | .array | .enumerator => true
  | _ => false

/-- One more node; a failure ends the run. -/
def step (s : Setting) (p : Progress) (node : Declaration) : Progress × Option Failure :=
  if isInline node then (p, none)
  else if s.policy.ignores node.name then
    let p := if (s.policy.aliasFor? node.name).isSome then
        p.report ⟨.unmappable node.name "is both aliased and ignored; the ignore rule wins",
          some node.place⟩
      else p
    (p.detail s!"Ignoring {node.kind.name}: {node.name}", none)
  else match s.policy.aliasFor? node.name with
    | some target => (p.detail s!"Aliasing {node.name} -> {target}", none)
    | none =>
      let outcome := declaration? s node
      let after := p.applyAll outcome.events
      match outcome.result with
      | .ok (some d) => (after.declare d, none)
      | .ok none => (after, none)
      | .error (.dangling type) =>
        ({ after with declarations := p.declarations }.report
          ⟨.danglingType type node.name, some node.place⟩, none)
      | .error (.failed failure) => (after, some failure)

/-- All nodes, up to a failure. What was reported before it remains. -/
def steps (s : Setting) (p : Progress) : List Declaration → Progress × Option Failure
  | [] => (p, none)
  | node :: rest =>
    match step s p node with
    | (p, none) => steps s p rest
    | (p, some failure) => (p, some failure)

/-- The result of mapping a tree: the binding or what kept it from being made, with the reports. -/
structure Result where
  bindings : Except Failure Binding.Bindings
  diagnostics : List Diagnostic
  details : List String

/-- Maps a tree under a policy. -/
def run (s : Setting) : Result :=
  let start : Progress :=
    if s.bitness ≠ s.tree.bitness then
      Progress.report {} ⟨.bitnessMismatch s.tree.bitness s.bitness, none⟩
    else {}
  match steps s start s.tree.nodes with
  | (p, none) =>
    ⟨.ok ⟨s.policy.className, s.bitness, p.declarations⟩, p.diagnostics, p.details⟩
  | (p, some failure) => ⟨.error failure, p.diagnostics, p.details⟩

end CInterop.Mapping
