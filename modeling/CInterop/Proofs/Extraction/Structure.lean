import CInterop.Proofs.Extraction.Constancy
import CInterop.Proofs.Extraction.Opening

/-!
# The structure of an extracted tree

Extraction of a header that can be read comes to a tree, unless types lead to each other without end or
a strict run meets a type that cannot be resolved. In the tree no two nodes have the same name, and a
pointer, an array and a function pointer are named for what they are made of, so that there is only one
of each. When a macro is settled in the end, its name is still reserved, so that it can be given up.
-/

namespace CInterop.Extraction

open FrontEnd Header
open Macro (Candidate)

/-! ## Nodes under their own names -/

/-- The bodies are pointers to one type, arrays of as many elements of one type, or function pointers
with one signature. -/
inductive SameType : Body String Int Bool → Body String Int Bool → Prop where
  | pointer (target : String) (size size' : Int) :
      SameType (.pointer target size) (.pointer target size')
  | array (element : String) (count size size' : Int) :
      SameType (.array element count size) (.array element count size')
  | functionPointer (result : String) {parameters parameters' : List (Parameter String)}
      (size size' : Int) : parameters.map (·.type) = parameters'.map (·.type) →
      SameType (.functionPointer result parameters size) (.functionPointer result parameters' size')

/-- A type that is made of others is named for them, and a pointer is as wide as all pointers. -/
def Shaped (bitness : Int) (node : Declaration) : Prop :=
  match node.body with
  | .pointer target size => node.name = target ++ "*" ∧ size = bitness / 8
  | .array element count _ => node.name = s!"{element}[{count}]"
  | .functionPointer result parameters _ =>
    node.name = functionPointerName result (parameters.map (·.type))
  | _ => True

/-- No two nodes of the tree have the same name, and all of them are named as they should be. -/
structure Canonical (t : Declarations) : Prop where
  distinct : t.names.Nodup
  bitness : t.bitness = 32 ∨ t.bitness = 64
  shaped : ∀ node ∈ t.nodes, Shaped t.bitness node

/-- There is only one node for each type that is made of others. -/
theorem Canonical.unique {t : Declarations} (h : Canonical t) {node node' : Declaration}
    (hnode : node ∈ t.nodes) (hnode' : node' ∈ t.nodes) (hsame : SameType node.body node'.body) :
    node = node' := by
  refine List.inj_on_of_nodup_map h.distinct hnode hnode' ?_
  have hshaped := h.shaped node hnode
  have hshaped' := h.shaped node' hnode'
  unfold Shaped at hshaped hshaped'
  generalize node.body = body at hsame hshaped
  generalize node'.body = body' at hsame hshaped'
  cases hsame with
  | pointer target => exact hshaped.1.trans hshaped'.1.symm
  | array element count => exact hshaped.trans hshaped'.symm
  | functionPointer result _ _ hparameters =>
    dsimp only at hshaped hshaped'
    rw [hshaped, hshaped', hparameters]

/-- What a node stems from tells its name. -/
theorem Stems.shaped {c : Setting} {s : State} {node : Declaration} (h : Stems c s node) :
    Shaped c.bitness node := by
  cases h with
  | pointer target => exact ⟨rfl, rfl⟩
  | array element count => exact rfl
  | functionPointer result parameters =>
    show functionPointerName result parameters = functionPointerName result (List.map _ _)
    rw [List.map_map]
    exact congrArg (functionPointerName result) (List.map_id parameters).symm
  | tag _ _ hdescribes _ => cases hdescribes <;> trivial
  | @function _ body _ _ hkind | @global _ body _ _ hkind =>
    unfold Shaped
    cases body <;> trivial
  | _ => trivial

/-! ## Macros that are settled -/

namespace Build

/-- Macros are settled one after another, and the name of each is reserved when its turn comes. -/
inductive SettlesReserved (accepted : List Declaration) : State → List Candidate → State → Prop where
  | done {s : State} : SettlesReserved accepted s [] s
  | next {s s₁ s' : State} {m : Candidate} {rest : List Candidate} : m.name ∈ s.registry.names →
      settle accepted m s = .ok () s₁ → SettlesReserved accepted s₁ rest s' →
      SettlesReserved accepted s (m :: rest) s'

variable {c : Setting} {accepted : List Declaration} {s s' : State}

/-- Settling a macro takes no name from the others. -/
theorem mem_names_settle {m : Candidate} (h : settle accepted m s = .ok () s') {name : String}
    (hname : name ∈ s.registry.names) (hne : name ≠ m.name) : name ∈ s'.registry.names := by
  unfold settle at h
  cases hfind : accepted.find? (·.name = m.name) with
  | some node =>
    rw [hfind] at h
    cases h
    show name ∈ (s.registry.declare node).names
    rw [Registry.names_declare]
    exact (names_prefix_reserve s.registry node.name).subset hname
  | none =>
    rw [hfind] at h
    cases h
    dsimp only
    split
    · exact hname
    · rw [Registry.names_release, List.mem_filter]
      exact ⟨hname, by simpa using hne⟩

theorem settlesReserved_of_forM {ms : List Candidate} (hdistinct : (ms.map (·.name)).Nodup)
    (hreserved : ∀ m ∈ ms, m.name ∈ s.registry.names) (h : ms.forM (settle accepted) s = .ok () s') :
    SettlesReserved accepted s ms s' := by
  induction ms generalizing s with
  | nil =>
    cases h
    exact .done
  | cons m rest ih =>
    obtain ⟨_, s₁, hsettle, hrest⟩ := Steps.bind_eq_ok h
    rw [List.map_cons, List.nodup_cons] at hdistinct
    rw [List.forall_mem_cons] at hreserved
    refine .next hreserved.1 hsettle (ih hdistinct.2 (fun m' hm' => ?_) hrest)
    refine mem_names_settle hsettle (hreserved.2 m' hm') fun heq => hdistinct.1 ?_
    exact heq ▸ List.mem_map_of_mem hm'

/-- The macros of a header are settled with their names reserved. -/
theorem settlesReserved_of_settleMacros (hs : Pending s) (h : settleMacros c s = .ok () s') :
    ∃ accepted judged, judgeMacros c s = .ok accepted judged ∧
      SettlesReserved accepted judged s.candidates s' := by
  obtain ⟨accepted, judged, hjudge, hsettle⟩ := judged_of_settleMacros h
  exact ⟨accepted, judged, hjudge, settlesReserved_of_forM hs.distinct
    (fun m hm => (continuing_judgeMacros _ _ _ hjudge).names.subset (hs.reserved m hm)) hsettle⟩

end Build

/-! ## Whole runs -/

section

variable {options : Options} {directory : String} {translation : Translation} {c : Setting}

/-- A tree is canonical, and the macros on the way to it were settled with their names reserved. -/
theorem canonical_of_tree {s₀ s : State} {t : Declarations} (hopened : Opened c s₀)
    (hvalid : c.bitness = 32 ∨ c.bitness = 64) (htree : Build.tree c s₀ = .ok t s) :
    Canonical t ∧ ∃ visited accepted judged,
      (do Build.nameTagsByTypedefs c; c.translation.topLevel.forM (Build.visit c)) s₀ =
        .ok () visited ∧
      Build.judgeMacros c visited = .ok accepted judged ∧
      Build.SettlesReserved accepted judged visited.candidates s := by
  have hstems := hopened.stems htree
  obtain ⟨-, hshape⟩ := course_of_tree hopened.sound htree
  obtain ⟨named, visited, hnames, hvisits, hsettles, hnodes⟩ := Build.tree_eq_ok htree
  have hpending := Build.pending_of_forM hopened.registry hopened.candidates hnames hvisits
  obtain ⟨accepted, judged, hjudge, hreserved⟩ :=
    Build.settlesReserved_of_settleMacros hpending hsettles
  obtain ⟨_, _, hsettlement⟩ := Build.settleMacros_eq_ok hpending hsettles
  have hdistinct : t.names.Nodup := by
    unfold Tree.names
    rw [hnodes]
    exact hsettlement.wellFormed.nodup.sublist
      (Registry.names_nodes_sublist hsettlement.wellFormed)
  have hwidth : t.bitness = c.bitness := hshape ▸ rfl
  refine ⟨⟨hdistinct, hwidth ▸ hvalid, fun node hnode => hwidth ▸ (hstems node hnode).shaped⟩,
    visited, accepted, judged, ?_, hjudge, hreserved⟩
  show EStateM.bind _ _ s₀ = _
  rw [EStateM.bind, hnames]
  exact hvisits

/-- A header that can be read comes to a canonical tree with one node for each type that is made of
others, and every macro is settled with its name reserved; or types lead to each other without end, or
the run is strict and met a type that cannot be resolved. -/
theorem run_canonical (hc : c = options.setting directory translation)
    (hbitness : options.bitness = 32 ∨ options.bitness = 64)
    (hreadable : translation.header.isReadable = true)
    (herrors : ∀ m ∈ translation.header.messages, m.isError = false)
    (htyping : translation.typing.isReadable = true) :
    (∃ t s₀ s, (run options directory true translation).tree = .ok t ∧ Opened c s₀ ∧
      Build.tree c s₀ = .ok t s ∧ Canonical t ∧
      (∀ node ∈ t.nodes, ∀ node' ∈ t.nodes, SameType node.body node'.body → node = node') ∧
      ∃ visited accepted judged,
        (do Build.nameTagsByTypedefs c; c.translation.topLevel.forM (Build.visit c)) s₀ =
          .ok () visited ∧
        Build.judgeMacros c visited = .ok accepted judged ∧
        Build.SettlesReserved accepted judged visited.candidates s) ∨
    (run options directory true translation).tree = .error (.fault .endlessTypes) ∨
    (options.isStrict = true ∧ ∃ spelling declaration,
      (run options directory true translation).tree =
        .error (.unresolvedType (Cause.unresolvedType spelling declaration).summary)) := by
  have hvalid : c.bitness = 32 ∨ c.bitness = 64 := hc ▸ hbitness
  obtain ⟨s₀, hopened, hrun⟩ := run_of_readable hc hbitness hreadable herrors
  cases htree : Build.tree c s₀ with
  | ok t s =>
    rw [htree] at hrun
    obtain ⟨hcanonical, hsettled⟩ := canonical_of_tree hopened hvalid htree
    refine .inl ⟨t, s₀, s, by rw [hrun]; rfl, hopened, htree, hcanonical, ?_, hsettled⟩
    exact fun node hnode node' hnode' hsame => hcanonical.unique hnode hnode' hsame
  | error stop s =>
    rw [htree] at hrun
    rw [hrun]
    cases treeStop_of_tree hopened.sound htree with
    | endless => exact .inr (.inl rfl)
    | strict spelling declaration hstrict =>
      exact .inr (.inr ⟨by rw [hc] at hstrict; exact hstrict, spelling, declaration, rfl⟩)
    | typing hunreadable =>
      rw [hc] at hunreadable
      cases htyping.symm.trans hunreadable

end

/-- A header with two variables of one array type, two of one function pointer type, a macro that is a
constant and one that is not. -/
def gridHeader : Translation where
  types := #[
    { kind := .scalar .int, spelling := "int", size := 4, align := 4 },
    { kind := .constantArray, spelling := "int[3]", size := 12, align := 4, element := ⟨some 0⟩
      count := 3 },
    { kind := .pointer, spelling := "int *", size := 8, align := 8, pointee := ⟨some 0⟩ },
    { kind := .prototype, spelling := "int (int *)", result := ⟨some 0⟩, parameters := [⟨some 2⟩] },
    { kind := .pointer, spelling := "int (*)(int *)", size := 8, align := 8, pointee := ⟨some 3⟩ }]
  entities := #[
    { kind := .constant, spelling := "WIDTH", file := some "/work/test.h", line := 1
      tokens := [⟨"WIDTH", 8, 13⟩, ⟨"3", 14, 15⟩] },
    { kind := .constant, spelling := "PLACE", file := some "/work/test.h", line := 2
      tokens := [⟨"PLACE", 24, 29⟩, ⟨"other", 30, 35⟩] },
    { kind := .global, spelling := "grid", file := some "/work/test.h", line := 3
      type := ⟨some 1⟩ },
    { kind := .global, spelling := "copy", file := some "/work/test.h", line := 4
      type := ⟨some 1⟩ },
    { kind := .global, spelling := "first", file := some "/work/test.h", line := 5
      type := ⟨some 4⟩ },
    { kind := .global, spelling := "second", file := some "/work/test.h", line := 6
      type := ⟨some 4⟩ },
    { kind := .global, spelling := "__sharpbindgen_WIDTH", type := ⟨some 0⟩ }]
  header := { top := [⟨some 0⟩, ⟨some 1⟩, ⟨some 2⟩, ⟨some 3⟩, ⟨some 4⟩, ⟨some 5⟩] }
  typing := { top := [⟨some 6⟩] }

/-- Reading that header. -/
def gridOptions : Options := { header := "/work/test.h", bitness? := some 64 }

/-- The tree of that header has one array and one function pointer, and the macro that is no constant
was given up. -/
theorem run_canonical_gridHeader :
    ∃ (t : Declarations) (s₀ visited judged s : State) (accepted : List Declaration),
      (run gridOptions "/work" true gridHeader).tree = .ok t ∧
      t.names = ["WIDTH", "int", "int[3]", "grid", "copy", "int*", "FnPtr_Int_IntPtr", "first",
        "second"] ∧
      Canonical t ∧
      (∀ node ∈ t.nodes, ∀ node' ∈ t.nodes, SameType node.body node'.body → node = node') ∧
      Opened (gridOptions.setting "/work" gridHeader) s₀ ∧
      (do Build.nameTagsByTypedefs (gridOptions.setting "/work" gridHeader)
          gridHeader.topLevel.forM (Build.visit (gridOptions.setting "/work" gridHeader))) s₀ =
        .ok () visited ∧
      Build.judgeMacros (gridOptions.setting "/work" gridHeader) visited = .ok accepted judged ∧
      Build.SettlesReserved accepted judged visited.candidates s := by
  have hnames : (run gridOptions "/work" true gridHeader).tree.toOption.map (·.names) =
      some ["WIDTH", "int", "int[3]", "grid", "copy", "int*", "FnPtr_Int_IntPtr", "first",
        "second"] := by decide +kernel
  rcases run_canonical (c := gridOptions.setting "/work" gridHeader) rfl (.inr rfl) rfl (by decide)
    rfl with
    ⟨t, s₀, s, hrun, hopened, -, hcanonical, hunique, visited, accepted, judged, hvisited, hjudged,
      hsettled⟩ | hendless | ⟨hstrict, -⟩
  · rw [hrun] at hnames
    exact ⟨t, s₀, visited, judged, s, accepted, hrun, Option.some.inj hnames, hcanonical, hunique,
      hopened, hvisited, hjudged, hsettled⟩
  · rw [hendless] at hnames
    cases hnames
  · cases hstrict

end CInterop.Extraction
