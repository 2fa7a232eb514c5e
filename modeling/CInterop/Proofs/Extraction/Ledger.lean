import Mathlib.Data.Finset.Basic
import CInterop.Proofs.Extraction.Structure

/-!
# A ledger for the registry

A registry keeps a name, its place and its node in one slot. They can be kept apart instead: the names in
the order in which they were reserved, the set of them, and a dictionary of nodes. Every operation then
writes to those of the three that it concerns, and nothing but the operations makes them agree. `InStep`
says that they do, and with the registry. It holds after every operation that the ledger allows, and an
extraction consists of such operations, however it ends: names are entered, what a declaration entered is
cut off again if it cannot be resolved, and in the end the names of macros get their nodes or are
released. So the nodes of a tree are those that a ledger lists.
-/

namespace CInterop.Extraction

open FrontEnd Header
open Macro (Candidate)

/-- The reserved names in order and as a set, and the nodes of the names that have one. -/
structure Ledger where
  order : List String := []
  reserved : Finset String := ∅
  nodes : String → Option Declaration := fun _ => none

/-- What is entered: a name, or a node together with its name. -/
inductive Entry where
  | reserve (name : String)
  | declare (node : Declaration)

/-- What is done at a time: something is entered, or entered and cut off again; a node is stored for a
name that is there, or a name is released. -/
inductive Operation where
  | enter (entry : Entry)
  | undo (entries : List Entry)
  | store (node : Declaration)
  | release (name : String)

namespace Ledger

/-- Adds a name to the set and the order, unless the set has it. -/
def reserve (l : Ledger) (name : String) : Ledger :=
  if name ∈ l.reserved then l
  else { l with reserved := insert name l.reserved, order := l.order ++ [name] }

/-- Writes a node into the dictionary. -/
def store (l : Ledger) (node : Declaration) : Ledger :=
  { l with nodes := Function.update l.nodes node.name (some node) }

/-- Strikes a name from the set and the dictionary. -/
def forget (l : Ledger) (name : String) : Ledger :=
  { l with reserved := l.reserved.erase name, nodes := Function.update l.nodes name none }

/-- Forgets the names after the first `mark`, one after another, and takes them out of the order. -/
def cut (l : Ledger) (mark : Nat) : Ledger :=
  { (l.order.drop mark).foldl forget l with order := l.order.take mark }

/-- Strikes a name from the set and the order. -/
def release (l : Ledger) (name : String) : Ledger :=
  { l with reserved := l.reserved.erase name, order := l.order.erase name }

def enter (l : Ledger) : Entry → Ledger
  | .reserve name => l.reserve name
  | .declare node => (l.reserve node.name).store node

def apply (l : Ledger) : Operation → Ledger
  | .enter entry => l.enter entry
  | .undo entries => (entries.foldl enter l).cut l.order.length
  | .store node => l.store node
  | .release name => l.release name

/-- What an operation relies on: a node is stored for a name that is reserved, and a name that is released
is in the order and has no node. -/
def Allows (l : Ledger) : Operation → Prop
  | .store node => node.name ∈ l.reserved
  | .release name => name ∈ l.order ∧ l.nodes name = none
  | _ => True

/-- All operations can rely on what they need when their turn comes. -/
def AllowsAll (l : Ledger) : List Operation → Prop
  | [] => True
  | operation :: rest => l.Allows operation ∧ (l.apply operation).AllowsAll rest

/-- The ledger after operations. -/
def applyAll (l : Ledger) (operations : List Operation) : Ledger := operations.foldl apply l

/-- The nodes that the dictionary has for the names in order. -/
def listed (l : Ledger) : List Declaration := l.order.filterMap l.nodes

theorem allowsAll_append {l : Ledger} {operations operations' : List Operation} :
    l.AllowsAll (operations ++ operations') ↔
      l.AllowsAll operations ∧ (l.applyAll operations).AllowsAll operations' := by
  induction operations generalizing l with
  | nil => exact ⟨fun h => ⟨trivial, h⟩, And.right⟩
  | cons operation rest ih =>
    show _ ∧ (l.apply operation).AllowsAll (rest ++ operations') ↔ _
    rw [ih, ← and_assoc]
    rfl

theorem allowsAll_enter (l : Ledger) (entries : List Entry) : l.AllowsAll (entries.map .enter) := by
  induction entries generalizing l with
  | nil => trivial
  | cons entry rest ih => exact ⟨trivial, ih _⟩

/-- Forgetting names leaves everything else as it was. -/
theorem foldl_forget (l : Ledger) (names : List String) :
    (∀ name, name ∈ (names.foldl forget l).reserved ↔ name ∈ l.reserved ∧ name ∉ names) ∧
    ∀ name, (names.foldl forget l).nodes name = if name ∈ names then none else l.nodes name := by
  induction names generalizing l with
  | nil => simp
  | cons first rest ih =>
    obtain ⟨hreserved, hnodes⟩ := ih (l.forget first)
    refine ⟨fun name => ?_, fun name => ?_⟩
    · rw [List.foldl_cons, hreserved, forget, Finset.mem_erase, List.mem_cons]
      tauto
    · rw [List.foldl_cons, hnodes, forget]
      by_cases heq : name = first <;> simp [heq]

end Ledger

namespace Registry

def enter (r : Registry) : Entry → Registry
  | .reserve name => r.reserve name
  | .declare node => r.declare node

/-- The same operation on a registry, where storing a node is declaring it. -/
def apply (r : Registry) : Operation → Registry
  | .enter entry => r.enter entry
  | .undo entries => (entries.foldl enter r).cut r.size
  | .store node => r.declare node
  | .release name => r.release name

/-- The registry after operations. -/
def applyAll (r : Registry) (operations : List Operation) : Registry := operations.foldl apply r

end Registry

/-! ## Ledger and registry in step -/

/-- The ledger agrees with a registry in which no name is reserved twice and nodes stand under their own
names. -/
structure InStep (l : Ledger) (r : Registry) : Prop where
  order : l.order = r.names
  reserved : ∀ name, name ∈ l.reserved ↔ r.has name = true
  nodes : ∀ name, l.nodes name = r.node? name
  wellFormed : r.WellFormed

namespace InStep

variable {l : Ledger} {r : Registry}

theorem empty : InStep {} {} where
  order := rfl
  reserved _ := by simp [Registry.has]
  nodes _ := rfl
  wellFormed := ⟨.nil, nofun⟩

/-- Both have the same mark for what comes from now on. -/
theorem length_order (h : InStep l r) : l.order.length = r.size := by
  rw [h.order, Registry.names, List.length_map]
  rfl

theorem mem_reserved (h : InStep l r) {name : String} : name ∈ l.reserved ↔ name ∈ r.names :=
  (h.reserved name).trans Registry.has_iff_mem

theorem reserve (h : InStep l r) (name : String) : InStep (l.reserve name) (r.reserve name) := by
  refine ⟨?_, fun other => ?_, fun other => ?_, h.wellFormed.reserve name⟩
  · rw [Registry.names_reserve, ← h.order, Ledger.reserve]
    by_cases hmem : name ∈ l.reserved
    · rw [if_pos hmem, if_pos (h.order ▸ h.mem_reserved.mp hmem)]
    · rw [if_neg hmem, if_neg (h.order ▸ mt h.mem_reserved.mpr hmem)]
  · rw [Registry.has_iff_mem, Registry.names_reserve, Ledger.reserve]
    by_cases hmem : name ∈ l.reserved
    · rw [if_pos hmem, if_pos (h.mem_reserved.mp hmem), h.mem_reserved]
    · rw [if_neg hmem, if_neg (mt h.mem_reserved.mpr hmem), Finset.mem_insert, h.mem_reserved,
        List.mem_append, List.mem_singleton, or_comm]
  · rw [Registry.node?_reserve, ← h.nodes, Ledger.reserve]
    split <;> rfl

/-- Where the name is reserved, storing a node is declaring it. -/
theorem store (h : InStep l r) {node : Declaration} (hmem : node.name ∈ l.reserved) :
    InStep (l.store node) (r.declare node) := by
  have hnames : (r.declare node).names = r.names := by
    rw [Registry.names_declare, Registry.names_reserve, if_pos (h.mem_reserved.mp hmem)]
  refine ⟨h.order.trans hnames.symm, fun other => ?_, fun other => ?_, h.wellFormed.declare node⟩
  · rw [Registry.has_iff_mem, hnames]
    exact h.mem_reserved
  · rw [Registry.node?_declare, ← h.nodes]
    exact Function.update_apply ..

theorem declare (h : InStep l r) (node : Declaration) :
    InStep ((l.reserve node.name).store node) (r.declare node) := by
  have hreserved := h.reserve node.name
  have hmem : node.name ∈ (l.reserve node.name).reserved := by
    unfold Ledger.reserve
    split
    · assumption
    · exact Finset.mem_insert_self _ _
  -- declaring a node reserves its name, which makes no difference the second time
  have hsame : (r.reserve node.name).declare node = r.declare node := by
    have hhas := (hreserved.reserved node.name).mp hmem
    unfold Registry.declare
    rw [Registry.reserve, if_pos hhas]
  rw [← hsame]
  exact hreserved.store hmem

theorem cut (h : InStep l r) (mark : Nat) : InStep (l.cut mark) (r.cut mark) := by
  obtain ⟨hreserved, hnodes⟩ := l.foldl_forget (l.order.drop mark)
  have hnames : (r.cut mark).names = l.order.take mark := by rw [Registry.names_cut, h.order]
  have hsplit : l.order.take mark ++ l.order.drop mark = r.names :=
    (List.take_append_drop mark l.order).trans h.order
  have hdistinct := h.wellFormed.nodup
  rw [← hsplit, List.nodup_append] at hdistinct
  refine ⟨hnames.symm, fun name => ?_, fun name => ?_, h.wellFormed.cut mark⟩
  · rw [Registry.has_iff_mem, hnames]
    show name ∈ ((l.order.drop mark).foldl Ledger.forget l).reserved ↔ _
    rw [hreserved, h.mem_reserved, ← hsplit, List.mem_append]
    constructor
    · rintro ⟨hkept | hcut, hnot⟩
      · exact hkept
      · exact absurd hcut hnot
    · exact fun hkept => ⟨.inl hkept, fun hcut => hdistinct.2.2 name hkept name hcut rfl⟩
  · show ((l.order.drop mark).foldl Ledger.forget l).nodes name = _
    rw [hnodes]
    by_cases hkept : name ∈ l.order.take mark
    · rw [if_neg fun hcut => hdistinct.2.2 name hkept name hcut rfl, h.nodes,
        Registry.node?_cut (hnames ▸ hkept)]
    · rw [Registry.node?_of_notMem (hnames ▸ hkept)]
      split
      · rfl
      · -- a name that is neither kept nor cut was not there
        rename_i hcut
        rw [h.nodes, Registry.node?_of_notMem]
        rw [← hsplit, List.mem_append]
        exact not_or.mpr ⟨hkept, hcut⟩

/-- A name without a node is released without a trace. -/
theorem release (h : InStep l r) {name : String} (hnone : l.nodes name = none) :
    InStep (l.release name) (r.release name) := by
  refine ⟨?_, fun other => ?_, fun other => ?_, h.wellFormed.release name⟩
  · show l.order.erase name = _
    rw [Registry.names_release, h.order, h.wellFormed.nodup.erase_eq_filter]
    exact List.filter_congr fun other _ => (decide_not ..).symm
  · rw [Registry.has_iff_mem, Registry.names_release]
    show other ∈ l.reserved.erase name ↔ _
    rw [Finset.mem_erase, h.mem_reserved, List.mem_filter, decide_eq_true_iff, and_comm]
  · rw [Registry.node?_release, ← h.nodes]
    show l.nodes other = _
    split
    · rename_i heq
      rw [heq, hnone]
    · rfl

theorem enter (h : InStep l r) (entry : Entry) : InStep (l.enter entry) (r.enter entry) := by
  cases entry with
  | reserve name => exact h.reserve name
  | declare node => exact h.declare node

theorem foldl_enter (h : InStep l r) (entries : List Entry) :
    InStep (entries.foldl Ledger.enter l) (entries.foldl Registry.enter r) := by
  induction entries generalizing l r with
  | nil => exact h
  | cons entry rest ih => exact ih (h.enter entry)

/-- An operation that the ledger allows leaves both in step. -/
theorem apply (h : InStep l r) {operation : Operation} (hallowed : l.Allows operation) :
    InStep (l.apply operation) (r.apply operation) := by
  cases operation with
  | enter entry => exact h.enter entry
  | undo entries =>
    show InStep ((entries.foldl Ledger.enter l).cut l.order.length) _
    rw [h.length_order]
    exact (h.foldl_enter entries).cut _
  | store node => exact h.store hallowed
  | release name => exact h.release hallowed.2

/-- So do operations one after another. -/
theorem applyAll (h : InStep l r) {operations : List Operation} (hallowed : l.AllowsAll operations) :
    InStep (l.applyAll operations) (r.applyAll operations) := by
  induction operations generalizing l r with
  | nil => exact h
  | cons operation rest ih => exact ih (h.apply hallowed.1) hallowed.2

/-- The ledger lists the nodes of the registry. -/
theorem listed (h : InStep l r) : l.listed = r.nodes := by
  have hfound : ∀ slot ∈ r.slots, l.nodes slot.name = slot.node? := fun slot hslot => by
    rw [h.nodes, Registry.node?, Registry.find?_slots h.wellFormed.nodup hslot]
    rfl
  unfold Ledger.listed Registry.nodes
  rw [h.order, Registry.names, List.filterMap_map]
  exact List.filterMap_congr hfound

end InStep

/-! ## Extraction in operations -/

namespace Build

variable {α : Type} {c : Setting} {s s' s'' : State}

/-- The registry after comes from the one before by entries. -/
def Entered (s s' : State) : Prop :=
  ∃ entries : List Entry, entries.foldl Registry.enter s.registry = s'.registry

theorem accumulates_entered : Accumulates Entered where
  trans := by
    rintro s s' s'' ⟨entries, h⟩ ⟨entries', h'⟩
    exact ⟨entries ++ entries', by rw [List.foldl_append, h, h']⟩
  aside h _ := ⟨[], h.symm⟩
  reserve _ name := ⟨[.reserve name], rfl⟩
  declare _ node := ⟨[.declare node], rfl⟩

/-- The registry after comes from the one before by operations that every ledger in step allows. -/
def Mirrored (s s' : State) : Prop :=
  ∀ l, InStep l s.registry → ∃ operations, l.AllowsAll operations ∧
    s.registry.applyAll operations = s'.registry

namespace Mirrored

theorem of_eq (h : s'.registry = s.registry) : Mirrored s s' := fun _ _ => ⟨[], trivial, h.symm⟩

theorem single (operation : Operation) (hallowed : ∀ l, InStep l s.registry → l.Allows operation)
    (h : s.registry.apply operation = s'.registry) : Mirrored s s' :=
  fun l hstep => ⟨[operation], ⟨hallowed l hstep, trivial⟩, h⟩

theorem trans (h : Mirrored s s') (h' : Mirrored s' s'') : Mirrored s s'' := by
  intro l hstep
  obtain ⟨operations, hallowed, hregistry⟩ := h l hstep
  -- the second step starts from another ledger, which is in step again
  have hthere : InStep (l.applyAll operations) s'.registry := hregistry ▸ hstep.applyAll hallowed
  obtain ⟨operations', hallowed', hregistry'⟩ := h' _ hthere
  refine ⟨operations ++ operations', Ledger.allowsAll_append.mpr ⟨hallowed, hallowed'⟩, ?_⟩
  rw [Registry.applyAll, List.foldl_append]
  exact (congrArg (·.applyAll operations') hregistry).trans hregistry'

end Mirrored

theorem accumulates_mirrored : Accumulates Mirrored where
  trans := .trans
  aside h _ := .of_eq h
  reserve _ name := .single (.enter (.reserve name)) (fun _ _ => trivial) rfl
  declare _ node := .single (.enter (.declare node)) (fun _ _ => trivial) rfl

/-- Entries stay, unless the declaration that they belong to is undone as a whole. -/
theorem mirrored_declaration (e : Entity) {body : Build α} (h : Leaving Entered body) :
    Leaving Mirrored (declaration c e body) := by
  intro s
  obtain ⟨entries, hentries⟩ := h s
  rcases after_declaration c e body s with hkept | ⟨d, hundone⟩
  · rw [hkept]
    refine fun l _ => ⟨entries.map .enter, l.allowsAll_enter entries, ?_⟩
    rw [Registry.applyAll, List.foldl_map]
    exact hentries
  · rw [hundone]
    refine .single (.undo entries) (fun _ _ => trivial) ?_
    show (entries.foldl Registry.enter s.registry).cut s.registry.size = _
    rw [hentries]

theorem mirrored_visit (e : Entity) : Leaving Mirrored (visit c e) :=
  accumulates_entered.registers.visit accumulates_mirrored.admits.toSpeaks accumulates_entered.resolve
    (fun e _ hbody => mirrored_declaration e hbody) accumulates_mirrored.collectMacro e

/-- A macro whose name is reserved gets its node or is released, unless something else has its name. -/
theorem mirrored_settle {accepted : List Declaration} {m : Candidate} (hm : m.name ∈ s.registry.names) :
    Mirrored s (after (settle accepted m) s) := by
  unfold settle
  split
  · rename_i node hfind
    have hname : node.name = m.name := by simpa using List.find?_some hfind
    -- the name is still reserved, so that there is nothing to do but to store the node
    refine .single (.store node) (fun l hstep => ?_) rfl
    exact hstep.mem_reserved.mpr (hname ▸ hm)
  · show Mirrored s (if (s.registry.node? m.name).isSome then s else _)
    split
    · exact .of_eq rfl
    · rename_i hnone
      refine .single (.release m.name) (fun l hstep => ⟨hstep.order ▸ hm, ?_⟩) rfl
      rw [hstep.nodes]
      simpa using hnone

theorem mirrored_forM_settle {accepted : List Declaration} {ms : List Candidate}
    (hdistinct : (ms.map (·.name)).Nodup) (hreserved : ∀ m ∈ ms, m.name ∈ s.registry.names) :
    Mirrored s (after (ms.forM (settle accepted)) s) := by
  induction ms generalizing s with
  | nil => exact .of_eq rfl
  | cons m rest ih =>
    rw [List.map_cons, List.nodup_cons] at hdistinct
    rw [List.forall_mem_cons] at hreserved
    refine after_bind Mirrored.trans (mirrored_settle hreserved.1) fun _ s₁ hsettle => ?_
    -- the names of the others are different, and settling one macro takes none of them
    refine ih hdistinct.2 fun m' hm' => mem_names_settle hsettle (hreserved.2 m' hm') fun heq => ?_
    exact hdistinct.1 (heq ▸ List.mem_map_of_mem hm')

theorem mirrored_settleMacros (hs : Pending s) : Mirrored s (after (settleMacros c) s) := by
  have hjudges : Leaving Mirrored (judgeMacros c) :=
    accumulates_mirrored.judgeMacros fun _ _ => .of_eq rfl
  unfold settleMacros
  refine after_bind Mirrored.trans (.of_eq rfl) fun _ s₁ hget => ?_
  cases hget
  refine after_bind Mirrored.trans (hjudges s) fun accepted judged hjudge => ?_
  exact mirrored_forM_settle hs.distinct fun m hm =>
    (continuing_judgeMacros _ _ _ hjudge).names.subset (hs.reserved m hm)

/-- From the empty registry on, extracting a tree consists of operations that a ledger allows. -/
theorem mirrored_tree (hregistry : s.registry = {}) (hcandidates : s.candidates = []) :
    Mirrored s (after (tree c) s) := by
  unfold tree
  refine after_bind Mirrored.trans (accumulates_mirrored.nameTagsByTypedefs s) fun _ named hnames => ?_
  have hvisit : Leaving Mirrored (c.translation.topLevel.forM (visit c)) :=
    accumulates_mirrored.composes.forM fun e _ => mirrored_visit e
  refine after_bind Mirrored.trans (hvisit named) fun _ visited hvisits => ?_
  have hpending := pending_of_forM hregistry hcandidates hnames hvisits
  exact after_bind Mirrored.trans (mirrored_settleMacros hpending) fun _ _ _ => .of_eq rfl

end Build

/-- However the extraction of a tree ends, a ledger that was kept along is in step with the registry, and
it lists the nodes of the tree if there is one. -/
theorem Opened.inStep {c : Setting} {s₀ : State} (h : Opened c s₀) :
    ∃ operations, Ledger.AllowsAll {} operations ∧
      InStep (Ledger.applyAll {} operations) (Build.after (Build.tree c) s₀).registry ∧
      ∀ t s, Build.tree c s₀ = .ok t s → t.nodes = (Ledger.applyAll {} operations).listed := by
  have hstart : InStep {} s₀.registry := h.registry ▸ .empty
  obtain ⟨operations, hallowed, hregistry⟩ :=
    Build.mirrored_tree (c := c) h.registry h.candidates {} hstart
  have hstep := hstart.applyAll hallowed
  rw [hregistry] at hstep
  refine ⟨operations, hallowed, hstep, fun t s htree => ?_⟩
  obtain ⟨_, _, _, _, _, hnodes⟩ := Build.tree_eq_ok htree
  unfold Build.after at hstep
  rw [htree] at hstep
  rw [hnodes, hstep.listed]

/-- The nodes of the tree that a run gives are those that a ledger lists after the operations of the
run. -/
theorem run_listed {options : Options} {directory : String} {isFile : Bool} {translation : Translation}
    {t : Declarations} (hrun : (run options directory isFile translation).tree = .ok t) :
    ∃ operations, Ledger.AllowsAll {} operations ∧
      t.nodes = (Ledger.applyAll {} operations).listed := by
  obtain ⟨s₀, s, hopened, htree, -⟩ := run_eq_ok rfl hrun
  obtain ⟨operations, hallowed, -, hlisted⟩ := hopened.inStep
  exact ⟨operations, hallowed, hlisted t s htree⟩

end CInterop.Extraction
