import CInterop.Proofs.Extraction.Asking
import CInterop.Proofs.Extraction.Survival

/-!
# Constants are closed and macros are accounted for

The constants of a tree are expressions of literals and of constants that the tree has as well, and
every macro of the header that is none of them was excluded, with one diagnostic. The lines on which
macros are typed are those of the source that the front end was asked for.
-/

namespace CInterop.Extraction.Build

open FrontEnd Header
open Macro (Candidate Expr)

variable {c : Setting} {s s' : State}

/-! ## One verdict for each macro -/

/-- How often something is told that excludes the macro. -/
def countExclusions (name : String) (ds : List Diagnostic) : Nat :=
  ds.countP (·.excluded? == some name)

/-- Among distinct names, one that was accepted was not excluded, and any other was, once. -/
theorem verdict_of_perm {names accepted excluded : List String} (hdistinct : names.Nodup)
    (hperm : (accepted ++ excluded).Perm names) {name : String} (hname : name ∈ names) :
    (name ∈ accepted ∧ excluded.count name = 0) ∨ (name ∉ accepted ∧ excluded.count name = 1) := by
  have hcount : accepted.count name + excluded.count name = 1 := by
    rw [← List.count_append, hperm.count_eq, hdistinct.count, if_pos hname]
  by_cases hmem : name ∈ accepted
  · have hpositive := List.count_pos_iff.mpr hmem
    exact .inl ⟨hmem, by omega⟩
  · have hzero := List.count_eq_zero.mpr hmem
    exact .inr ⟨hmem, by omega⟩

theorem Excludes.countExclusions {names : List String} (h : Excludes names s s') :
    ∃ own, s'.diagnostics = s.diagnostics ++ own ∧
      ∀ name, Build.countExclusions name own = names.count name := by
  obtain ⟨own, hdiagnostics, rfl⟩ := h
  exact ⟨own, hdiagnostics, fun name => List.count_filterMap.symm⟩

/-! ## The tree -/

theorem pending_of_forM {s₀ : State} {es : List Entity} (hregistry : s₀.registry = {})
    (hcandidates : s₀.candidates = []) {named : State} (hnames : nameTagsByTypedefs c s₀ = .ok () named)
    (h : es.forM (visit c) named = .ok () s) : Pending s :=
  (proceeds_forM (pending_of_between (.start hregistry hcandidates hnames)) h).pending

/-- What was accepted are the constants of the tree. -/
theorem mem_accepted_of_mem_nodes {accepted : List Declaration} {excluded : List String}
    {t : Declarations} (h : Settlement c accepted excluded s s') (hnodes : t.nodes = s'.registry.nodes)
    {node : Declaration} (hnode : node ∈ t.nodes) (hkind : node.kind = .constant) : node ∈ accepted := by
  rw [hnodes] at hnode
  exact h.constants _ _ ((Registry.mem_nodes_iff h.wellFormed).mp hnode) hkind

theorem exists_constant_of_mem_accepted {accepted : List Declaration} {excluded : List String}
    {t : Declarations} (h : Settlement c accepted excluded s s') (hnodes : t.nodes = s'.registry.nodes)
    {node : Declaration} (hnode : node ∈ accepted) :
    ∃ other ∈ t.nodes, other.name = node.name ∧ other.kind = .constant := by
  obtain ⟨constant, hconstant, hlookup⟩ := h.declared node hnode
  have hname := h.wellFormed.named _ _ hlookup
  refine ⟨constant, ?_, hname, h.kind_of_mem hconstant⟩
  rw [hnodes, Registry.mem_nodes_iff h.wellFormed, hname]
  exact hlookup

/-- Whatever the types of macros are looked up in, and whatever the front end says about the source that
types them: where all macros are judged, the constants are some of them in their order, each of an
expression without calls, without strings unless it is one, and over constants before it, with no error
on the line that types it. If looking up a type asks nothing, the front end is asked once, for the text of
these lines, or not at all if no macro passes the screening. If looking up a type excludes no macro and
their names are distinct, every macro is a constant and not excluded, or none and excluded once. So in the
tree of a header, the names in a constant are those of constants of the tree, every macro that was
collected and is no constant of the tree was excluded once in the end, and the front end was asked for the
macros with one definition that passed the screening. -/
theorem constants_closed (c : Setting) :
    (∀ (types : TypeRegistry) (candidates : List Candidate) (s s' : State)
        (accepted : List Declaration), constants c types candidates s = .ok accepted s' →
      (accepted.map (·.name)).Sublist (candidates.map (·.name)) ∧
      (∀ before node after, accepted = before ++ node :: after →
        ∃ i m e, Becomes c (Candidate.kept (Candidate.screen [] candidates)) i m e before node) ∧
      (types.AsksNothing → s'.requests =
        s.requests ++ typingRequests c (Candidate.kept (Candidate.screen [] candidates))) ∧
      (types.IsSilent → (candidates.map (·.name)).Nodup →
        ∃ own, s'.diagnostics = s.diagnostics ++ own ∧ ∀ m ∈ candidates,
          (m.name ∈ accepted.map (·.name) ∧ countExclusions m.name own = 0) ∨
          (m.name ∉ accepted.map (·.name) ∧ countExclusions m.name own = 1))) ∧
    ∀ (s₀ s : State) (t : Declarations), s₀.registry = {} → s₀.candidates = [] →
        tree c s₀ = .ok t s →
      (∀ node ∈ t.nodes, ∀ type value, node.body = .constant type value →
        ∃ e, Expr.ofText? value = some e ∧ ∀ name ∈ e.identifiers,
          ∃ other ∈ t.nodes, other.name = name ∧ other.kind = .constant) ∧
      ∃ visited own,
        (do nameTagsByTypedefs c; c.translation.topLevel.forM (visit c)) s₀ = .ok () visited ∧
        s.diagnostics = visited.diagnostics ++ own ∧
        s.requests = s₀.requests ++ typingRequests c (Candidate.kept (Candidate.screen []
          (visited.candidates.filter fun m => !visited.redefined.contains m.name))) ∧
        ∀ m ∈ visited.candidates, (∀ node ∈ t.nodes, node.name = m.name → node.kind ≠ .constant) →
          countExclusions m.name own = 1 := by
  constructor
  · intro types candidates s s' accepted h
    obtain ⟨hsub, ⟨excluded, hperm, hexcludes⟩, hbecomes⟩ := constants_eq_ok h
    refine ⟨hsub, hbecomes, fun htypes => requests_constants htypes h, fun htypes hdistinct => ?_⟩
    obtain ⟨own, hdiagnostics, hcount⟩ := Excludes.countExclusions (hexcludes htypes)
    refine ⟨own, hdiagnostics, fun m hm => ?_⟩
    rw [hcount]
    exact verdict_of_perm hdistinct hperm (List.mem_map_of_mem hm)
  · intro s₀ s t hregistry hcandidates htree
    obtain ⟨named, visited, hnames, hvisits, hsettles, hnodes⟩ := tree_eq_ok htree
    have hpending := pending_of_forM hregistry hcandidates hnames hvisits
    obtain ⟨accepted, excluded, hsettlement⟩ := settleMacros_eq_ok hpending hsettles
    obtain ⟨own, hdiagnostics, hcount⟩ := Excludes.countExclusions hsettlement.excludes
    refine ⟨fun node hnode type value hbody => ?_, visited, own, ?_, hdiagnostics, ?_,
      fun m hm hnone => ?_⟩
    · have hkind : node.kind = .constant := by
        unfold Node.kind
        rw [hbody]
        rfl
      obtain ⟨before, after, hsplit⟩ :=
        List.append_of_mem (mem_accepted_of_mem_nodes hsettlement hnodes hnode hkind)
      obtain ⟨typed, i, m, e, hbecomes⟩ := hsettlement.becomes before node after hsplit
      obtain ⟨type', rfl⟩ := hbecomes.node
      cases hbody
      refine ⟨e, hbecomes.expression, fun name hname => ?_⟩
      obtain ⟨other, hother, rfl⟩ := hbecomes.closed name hname
      exact exists_constant_of_mem_accepted hsettlement hnodes
        (hsplit ▸ List.mem_append_left _ hother)
    · show EStateM.bind _ _ s₀ = _
      rw [EStateM.bind, hnames]
      exact hvisits
    · have hnamed : named.requests = s₀.requests :=
        accumulates_unasked.nameTagsByTypedefs.of_ok hnames
      have hvisited : visited.requests = named.requests :=
        (accumulates_unasked.composes.forM fun e _ => unasked_visit e).of_ok hvisits
      rw [requests_settleMacros hsettles, hvisited, hnamed]
    · rw [hcount]
      rcases verdict_of_perm hpending.distinct hsettlement.accounted (List.mem_map_of_mem hm) with
        ⟨haccepted, -⟩ | ⟨-, hone⟩
      · obtain ⟨node, hnode, hname⟩ := List.mem_map.mp haccepted
        obtain ⟨other, hother, hname', hkind⟩ := exists_constant_of_mem_accepted hsettlement hnodes hnode
        exact absurd hkind (hnone other hother (hname'.trans hname))
      · exact hone

/-- A header with macros of which one does not compile, as the front end says of its line, and another
one needs that one. -/
def limitsHeader : Translation where
  types := #[{ kind := .scalar .int, spelling := "int", size := 4, align := 4 }]
  entities := #[
    { kind := .constant, spelling := "LOW", file := some "/work/limits.h", line := 1
      tokens := [⟨"LOW", 8, 11⟩, ⟨"1", 12, 13⟩] },
    { kind := .constant, spelling := "PART", file := some "/work/limits.h", line := 2
      tokens := [⟨"PART", 22, 26⟩, ⟨"LOW", 27, 30⟩, ⟨"/", 31, 32⟩, ⟨"0", 33, 34⟩] },
    { kind := .constant, spelling := "REST", file := some "/work/limits.h", line := 3
      tokens := [⟨"REST", 43, 47⟩, ⟨"PART", 48, 52⟩, ⟨"-", 53, 54⟩, ⟨"1", 55, 56⟩] },
    { kind := .constant, spelling := "HIGH", file := some "/work/limits.h", line := 4
      tokens := [⟨"HIGH", 65, 69⟩, ⟨"LOW", 70, 73⟩, ⟨"+", 74, 75⟩, ⟨"1", 76, 77⟩] },
    { kind := .global, spelling := "__sharpbindgen_LOW", type := ⟨some 0⟩ },
    { kind := .global, spelling := "__sharpbindgen_REST", type := ⟨some 0⟩ },
    { kind := .global, spelling := "__sharpbindgen_HIGH", type := ⟨some 0⟩ }]
  header := { top := [⟨some 0⟩, ⟨some 1⟩, ⟨some 2⟩, ⟨some 3⟩] }
  typing := {
    top := [⟨some 4⟩, ⟨some 5⟩, ⟨some 6⟩]
    messages := [{
      rank := Message.errorRank
      text := "division by zero"
      file := some "/work/__sharpbindgen_macros.c"
      line := 3 }] }

def limitsSetting : Setting where
  translation := limitsHeader
  header := "/work/limits.h"
  directory := "/work"
  bitness := 64
  arguments := []
  rules := ⟨[]⟩
  isStrict := false
  isVerbose := false

def limitsMacros : List Candidate :=
  [⟨"LOW", "1", none⟩, ⟨"PART", "LOW / 0", none⟩, ⟨"REST", "PART - 1", none⟩,
    ⟨"HIGH", "LOW + 1", none⟩]

/-- All four macros pass the screening, so that there is a line for each in the source that the front end
is asked for, and the two that do not become constants are excluded, once each. -/
theorem constants_closed_limitsSetting :
    (∃ accepted s, constants limitsSetting (typeRegistry limitsSetting) limitsMacros {} =
        .ok accepted s ∧ accepted.map (·.name) = ["LOW", "HIGH"] ∧
      (∀ before node after, accepted = before ++ node :: after →
        ∃ i m e, Becomes limitsSetting limitsMacros i m e before node) ∧
      s.requests.map (·.source) = [some (String.join [
        "#include \"/work/limits.h\"\n",
        "static const __typeof__(LOW) __sharpbindgen_LOW = LOW;\n",
        "static const __typeof__(PART) __sharpbindgen_PART = PART;\n",
        "static const __typeof__(REST) __sharpbindgen_REST = REST;\n",
        "static const __typeof__(HIGH) __sharpbindgen_HIGH = HIGH;\n"])] ∧
      countExclusions "LOW" s.diagnostics = 0 ∧ countExclusions "PART" s.diagnostics = 1 ∧
      countExclusions "REST" s.diagnostics = 1 ∧ countExclusions "HIGH" s.diagnostics = 0) ∧
    ∃ (t : Declarations) (s visited : State) (own : List Diagnostic),
      tree limitsSetting {} = .ok t s ∧
      t.nodes.map (fun node => (node.name, node.kind)) =
        [("LOW", .constant), ("HIGH", .constant), ("int", .primitive)] ∧
      (∀ node ∈ t.nodes, ∀ type value, node.body = .constant type value →
        ∃ e, Expr.ofText? value = some e ∧ ∀ name ∈ e.identifiers,
          ∃ other ∈ t.nodes, other.name = name ∧ other.kind = .constant) ∧
      s.diagnostics = visited.diagnostics ++ own ∧
      ∀ m ∈ visited.candidates, (∀ node ∈ t.nodes, node.name = m.name → node.kind ≠ .constant) →
        countExclusions m.name own = 1 := by
  obtain ⟨hmacros, hheader⟩ := constants_closed limitsSetting
  constructor
  · have hresult : hasResult (constants limitsSetting (typeRegistry limitsSetting) limitsMacros) {}
        (fun accepted _ => decide (accepted.map (·.name) = ["LOW", "HIGH"])) = true := by
      decide +kernel
    have hscreened : Candidate.kept (Candidate.screen [] limitsMacros) = limitsMacros := by
      decide +kernel
    obtain ⟨accepted, s, hconstants, htest⟩ := eq_ok_of_hasResult hresult
    have hnames : accepted.map (·.name) = ["LOW", "HIGH"] := of_decide_eq_true htest
    obtain ⟨-, hbecomes, hasked, haccounts⟩ := hmacros _ _ _ _ _ hconstants
    obtain ⟨own, hown, hcounts⟩ := haccounts (isSilent_typeRegistry limitsSetting) (by decide)
    rw [hscreened] at hbecomes hasked
    rw [hnames] at hcounts
    refine ⟨accepted, s, hconstants, hnames, hbecomes, ?_, ?_⟩
    · rw [hasked (asksNothing_typeRegistry limitsSetting)]
      decide +kernel
    rw [show s.diagnostics = own from hown]
    simpa [limitsMacros] using hcounts
  · have hresult : hasResult (tree limitsSetting) {} (fun t _ =>
        decide (t.nodes.map (fun node => (node.name, node.kind)) =
          [("LOW", .constant), ("HIGH", .constant), ("int", .primitive)])) = true := by
      decide +kernel
    obtain ⟨t, s, htree, htest⟩ := eq_ok_of_hasResult hresult
    obtain ⟨hclosed, visited, own, -, hdiagnostics, -, hcounts⟩ := hheader {} s t rfl rfl htree
    exact ⟨t, s, visited, own, htree, of_decide_eq_true htest, hclosed, hdiagnostics, hcounts⟩

end CInterop.Extraction.Build
