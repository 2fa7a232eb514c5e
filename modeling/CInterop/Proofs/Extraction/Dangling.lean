import CInterop.Extraction
import CInterop.Proofs.Extraction.Constant

/-!
# Dangling references come from name clashes

A tree refers to something that is no type only where a function, a variable or a macro bears the name
of a type. One end of such a reference has an ordinary name, and if no name that was given for a type
is ordinary there is no such reference at all. It does not matter which declarations could not be
resolved, nor in which order records, typedefs and macros occur.
-/

namespace CInterop.FrontEnd

/-- Whether a function, a variable or a macro at the top level has the name. -/
def Translation.IsOrdinary (t : Translation) (name : String) : Prop :=
  ∃ e ∈ t.topLevel,
    (e.kind = .function ∨ e.kind = .global ∨ e.kind = .constant) ∧ e.spelling = name

instance (t : Translation) : DecidablePred t.IsOrdinary :=
  fun name => inferInstanceAs (Decidable (∃ e ∈ t.topLevel,
    (e.kind = .function ∨ e.kind = .global ∨ e.kind = .constant) ∧ e.spelling = name))

end CInterop.FrontEnd

namespace CInterop.Extraction

open FrontEnd Header

namespace Build

variable {O A P : String → Prop} {c : Setting} {s : State} {stopped : State → Prop}

/-! ## All declarations of a header -/

/-- A declaration that only resolves a type keeps the invariant, also when it is undone. -/
theorem leads_declaration_resolve (hOP : ∀ name, O name → A name → ¬ P name) (e : Entity) :
    Leads A (declaration c e (resolve c e.type)) s stopped fun _ s' => Keeps O A P s s' :=
  leads_declaration hOP e
    ((resolves_resolve c e.type s).post fun _ _ h hs => hs.grown h.grown)

theorem leads_visitKind (hOP : ∀ name, O name → A name → ¬ P name) {e : Entity}
    (hname : e.kind = .function ∨ e.kind = .global ∨ e.kind = .constant → O e.spelling) :
    Leads A (visitKind c e) s stopped fun _ s' => Keeps O A P s s' := by
  have htag : Leads A (do
      if isAnonymous e && ((← get).tagNames.lookup e.spot).isNone then return
      declaration c e (resolve c e.type)) s stopped fun _ s' => Keeps O A P s s' := by
    refine leads_get.bind fun a s₁ => ?_
    split
    · exact .pure keeps_quiet
    · refine (leads_declaration_resolve hOP e).mono (fun _ h _ => h) fun _ _ h hquiet hs => ?_
      exact h (hs.quiet hquiet)
  unfold visitKind
  split
  · exact leads_declaration hOP e (leads_function (hname (.inl ‹_›)))
  · exact leads_declaration hOP e (leads_global (hname (.inr (.inl ‹_›))))
  · exact htag
  · exact htag
  · exact leads_declaration_resolve hOP e
  · exact leads_declaration hOP e (leads_topTypedef e)
  · exact leads_collectMacro (hname (.inr (.inr ‹_›)))
  all_goals exact .pure id

theorem leads_visit (hOP : ∀ name, O name → A name → ¬ P name) {e : Entity}
    (hname : e.kind = .function ∨ e.kind = .global ∨ e.kind = .constant → O e.spelling) :
    Leads A (visit c e) s stopped fun _ s' => Keeps O A P s s' := by
  unfold visit
  split
  · exact .pure id
  · split
    · exact (leads_detail c _).post fun _ _ => keeps_quiet
    · exact leads_visitKind hOP hname

theorem leads_nameTagsByTypedefs :
    Leads A (nameTagsByTypedefs c) s stopped fun _ s' => Quiet s s' := by
  unfold nameTagsByTypedefs
  refine leads_quiet_forM fun e s₁ => ?_
  split
  · split
    · split
      · exact leads_nameTag _ _
      · exact .pure (.refl s₁)
    · exact .pure (.refl s₁)
  · exact .pure (.refl s₁)

/-- The tree of a header is what is left of the registry at the end, which is in order. -/
theorem leads_tree (hregular : c.translation.Regular)
    (hOP : ∀ name, c.translation.IsOrdinary name → A name → ¬ P name) :
    Leads A (tree c) s stopped fun t s' =>
      Keeps c.translation.IsOrdinary A P s s' ∧ t.nodes = s'.registry.nodes := by
  unfold tree
  refine leads_nameTagsByTypedefs.bind fun _ s₁ => ?_
  refine (leads_forM fun e he _ => leads_visit hOP fun hkind => ⟨e, he, hkind, rfl⟩).bind
    fun _ s₂ => ?_
  refine (leads_settleMacros (O := c.translation.IsOrdinary) (P := P) hregular).bind
    fun _ s₃ => Leads.get.bind fun a s₄ => .pure ?_
  intro hget hsettle hvisit hname
  obtain ⟨rfl, rfl⟩ := hget
  exact ⟨fun hs => hsettle (hvisit (hs.quiet hname)), rfl⟩

theorem leads_warn (line : String) : Leads A (warn line) s stopped fun _ s' => Quiet s s' :=
  leads_quiet rfl rfl ⟨rfl, rfl⟩

theorem leads_openHeader : Leads A (openHeader c) s stopped fun _ s' => Quiet s s' := by
  have hmessages : ∀ (messages : List Message) s, Leads A (messages.forM fun m => do
      warn ("\t" ++ m.shown)
      modify fun s => { s with diagnostics :=
        s.diagnostics ++ [⟨.frontEnd m.severity m.shown, none⟩] }) s stopped
      fun _ s' => Quiet s s' :=
    fun messages s => leads_quiet_forM fun m s =>
      leads_quiet_bind (leads_warn _) fun _ _ => leads_quiet rfl rfl ⟨rfl, rfl⟩
  have hend : ∀ (errors : List Message) s, Leads A (if !errors.isEmpty then
      throw (.failed (.frontEndErrors (errors.map (·.shown)))) else pure ()) s stopped
      fun _ s' => Quiet s s' := by
    intro errors s
    split
    · exact .throw_failed
    · exact .pure (.refl s)
  unfold openHeader
  refine leads_quiet_bind (leads_say _) fun _ s₁ => leads_quiet_bind (leads_say _) fun _ s₂ => ?_
  refine leads_quiet_bind (leads_ask _) fun _ s₃ => ?_
  dsimp only
  split
  · exact .throw_failed
  · split
    · refine leads_quiet_bind (leads_warn _) fun _ s₄ => ?_
      exact leads_quiet_bind (hmessages _ _) fun _ s₅ => hend _ _
    · exact leads_quiet_bind (hmessages _ _) fun _ s₅ => hend _ _

end Build

/-! ## The tree -/

/-- What a node of the tree refers to was given for a type, and it is a type of the tree unless its
name is ordinary. -/
theorem Orderly.reference {O A P : String → Prop} {s : State} (h : Orderly O A P s)
    {t : Declarations} (ht : t.nodes = s.registry.nodes) {node : Declaration} (hnode : node ∈ t.nodes)
    (hP : P node.name) {other : String} (hother : other ∈ node.body.references) :
    A other ∧ (O other ∨ t.hasType other = true) := by
  have hlookup := (Registry.mem_nodes_iff h.wellFormed).mp (ht ▸ hnode)
  obtain ⟨hA, hreserved⟩ := h.refs node.name node hlookup hP other hother
  refine ⟨hA, ?_⟩
  by_cases hO : O other
  · exact .inl hO
  · right
    -- a reserved name without a node is ordinary, which this one is not
    cases hfound : s.registry.node? other with
    | none => exact absurd (h.complete other (hreserved.resolve_left hO) hfound) hO
    | some found =>
      show (⟨t.file, t.bitness, t.nodes⟩ : Declarations).hasType other = true
      rw [ht]
      exact Registry.hasType_nodes h.wellFormed hfound (h.types other found hfound hO)

theorem orderly_start (O A P : String → Prop) : Orderly O A P {} where
  wellFormed := ⟨.nil, fun _ _ h => by cases h⟩
  types _ _ h := by cases h
  refs _ _ h := by cases h
  complete _ h := absurd h List.not_mem_nil
  candidates _ h := absurd h List.not_mem_nil

/-- A whole run of the builder ends with its registry in order. -/
theorem orderly_of_ok {A P : String → Prop} {c : Setting} (hregular : c.translation.Regular)
    (hOP : ∀ name, c.translation.IsOrdinary name → A name → ¬ P name) {t : Declarations} {s : State}
    (hresult : Build.extraction c {} = .ok t s)
    (hfits : Fits A s) :
    Orderly c.translation.IsOrdinary A P s ∧ t.nodes = s.registry.nodes := by
  have hrun : Leads A (Build.extraction c) {} (fun _ => True) fun t s =>
        Orderly c.translation.IsOrdinary A P s ∧ t.nodes = s.registry.nodes := by
    refine Build.leads_openHeader.bind fun _ s₁ => ?_
    refine (Build.leads_tree hregular hOP).mono (fun _ h _ => h) fun _ _ h hquiet => ?_
    exact ⟨h.1 ((orderly_start _ A P).quiet hquiet), h.2⟩
  unfold Leads at hrun
  rw [hresult] at hrun
  exact hrun.2 hfits

section

variable {options : Options} {directory : String} {isFile : Bool} {translation : Translation}

/-- The nodes of a tree are those of a registry in order, if the names that were given for types are
as assumed. -/
theorem run_orderly {A P : String → Prop} (hregular : translation.Regular)
    (hOP : ∀ name, translation.IsOrdinary name → A name → ¬ P name) {t : Declarations}
    (hrun : (run options directory isFile translation).tree = .ok t)
    (hresolved : ∀ name ∈ (run options directory isFile translation).resolved, A name)
    (hstrings : ∀ name ∈ (run options directory isFile translation).strings, A name) :
    ∃ s, Orderly translation.IsOrdinary A P s ∧ t.nodes = s.registry.nodes := by
  unfold run at hrun hresolved hstrings
  cases harguments : arguments options.bitness options.includeDirs options.defines
      options.extra with
  | error cause =>
    rw [harguments] at hrun
    cases hrun
  | ok args =>
    rw [harguments] at hrun hresolved hstrings
    dsimp only at hrun hresolved hstrings
    cases isFile with
    | false => cases hrun
    | true =>
      rw [if_neg (by decide)] at hrun hresolved hstrings
      split at hrun
      · rename_i t' s hresult
        cases hrun
        rw [hresult] at hresolved hstrings
        obtain ⟨horderly, hnodes⟩ := orderly_of_ok hregular hOP hresult ⟨hresolved, hstrings⟩
        exact ⟨s, horderly, hnodes⟩
      · cases hrun

/-- Where a tree refers to something that is no type of it, the node or what it refers to has an
ordinary name. Nothing dangles if no name that a type was resolved to, and none that strings were
given with, is ordinary. -/
theorem run_danglingReferences (hregular : translation.Regular) {t : Declarations}
    (hrun : (run options directory isFile translation).tree = .ok t) :
    (∀ p ∈ t.danglingReferences, translation.IsOrdinary p.1 ∨ translation.IsOrdinary p.2) ∧
    ((∀ name ∈ (run options directory isFile translation).resolved,
        ¬ translation.IsOrdinary name) →
      (∀ name ∈ (run options directory isFile translation).strings,
        ¬ translation.IsOrdinary name) →
      t.danglingReferences = []) := by
  have hdangling : ∀ p ∈ t.danglingReferences, ∃ node ∈ t.nodes, node.name = p.1 ∧
      p.2 ∈ node.body.references ∧ t.hasType p.2 ≠ true := by
    intro p hp
    obtain ⟨node, hnode, hp⟩ := List.mem_flatMap.mp hp
    obtain ⟨other, hother, rfl⟩ := List.mem_map.mp hp
    obtain ⟨hother, hnot⟩ := List.mem_filter.mp hother
    exact ⟨node, hnode, rfl, hother, by simpa using hnot⟩
  constructor
  · intro p hp
    obtain ⟨node, hnode, hname, hother, hnot⟩ := hdangling p hp
    by_cases hordinary : translation.IsOrdinary p.1
    · exact .inl hordinary
    · -- nothing is assumed of the names given for types, and this node has no ordinary name
      obtain ⟨s, horderly, hnodes⟩ := run_orderly (A := fun _ => True)
        (P := fun name => ¬ translation.IsOrdinary name) hregular (fun _ h _ h' => h' h) hrun
        (fun _ _ => trivial) (fun _ _ => trivial)
      have href := horderly.reference hnodes hnode (hname ▸ hordinary) hother
      exact .inr (href.2.resolve_right hnot)
  · intro hresolved hstrings
    -- no name given for a type is ordinary, and all nodes are looked at
    obtain ⟨s, horderly, hnodes⟩ := run_orderly (A := fun name => ¬ translation.IsOrdinary name)
      (P := fun _ => True) hregular (fun _ h h' _ => h' h) hrun hresolved hstrings
    refine List.eq_nil_iff_forall_not_mem.mpr fun p hp => ?_
    obtain ⟨node, hnode, -, hother, hnot⟩ := hdangling p hp
    obtain ⟨hA, href⟩ := horderly.reference hnodes hnode trivial hother
    exact href.elim hA hnot

end

/-- A header with a record that refers to itself, a function with a parameter of a type that cannot be
resolved, a macro and a variable. -/
def recordHeader : Translation where
  types := #[
    { kind := .scalar .int, spelling := "int", size := 4, align := 4 },
    { kind := .record, spelling := "struct node", size := 16, align := 8
      declaration := ⟨some 0⟩, fields := [⟨some 1⟩, ⟨some 2⟩] },
    { kind := .elaborated, spelling := "struct node", canonical := ⟨some 1⟩, size := 16, align := 8
      named := ⟨some 1⟩ },
    { kind := .pointer, spelling := "struct node *", canonical := ⟨some 4⟩, size := 8, align := 8
      pointee := ⟨some 2⟩ },
    { kind := .pointer, spelling := "struct node *", size := 8, align := 8, pointee := ⟨some 1⟩ },
    { kind := .enumeration, spelling := "enum color", size := 4, align := 4
      declaration := ⟨some 3⟩ },
    { kind := .scalar .plainSignedChar, spelling := "char", size := 1, align := 1 },
    { kind := .constantArray, spelling := "char[2]", size := 2, align := 1, element := ⟨some 6⟩
      count := 2 },
    { kind := .other ("VECTOR"), spelling := "v4", size := 16, align := 16 }]
  entities := #[
    { kind := .struct, spelling := "node", file := some "/work/test.h", line := 1
      type := ⟨some 1⟩, definition := ⟨some 0⟩ },
    { kind := .other ("FIELD_DECL"), spelling := "next", type := ⟨some 3⟩ },
    { kind := .other ("FIELD_DECL"), spelling := "color", type := ⟨some 5⟩, bitOffset := 64 },
    { kind := .enumeration, spelling := "color", file := some "/work/test.h", line := 2
      type := ⟨some 5⟩, integerType := ⟨some 0⟩, definition := ⟨some 3⟩ },
    { kind := .function, spelling := "mix", file := some "/work/test.h", line := 3
      result := ⟨some 0⟩, parameters := [⟨some 5⟩, ⟨some 6⟩] },
    { kind := .other ("PARM_DECL"), spelling := "n", type := ⟨some 3⟩ },
    { kind := .other ("PARM_DECL"), spelling := "v", type := ⟨some 8⟩ },
    { kind := .constant, spelling := "S", file := some "/work/test.h", line := 4
      tokens := [⟨"S", 8, 9⟩, ⟨"\"x\"", 10, 13⟩] },
    { kind := .global, spelling := "first", file := some "/work/test.h", line := 5
      type := ⟨some 3⟩ },
    { kind := .global, spelling := "__sharpbindgen_S", type := ⟨some 7⟩ }]
  header := { top := [⟨some 4⟩, ⟨some 7⟩, ⟨some 8⟩] }
  typing := { top := [⟨some 9⟩] }

theorem run_danglingReferences_recordHeader :
    recordHeader.Regular ∧ ∃ t : Declarations,
      (run { header := "/work/test.h", bitness? := some 64 } "/work" true recordHeader).tree =
        .ok t ∧
      (∀ p ∈ t.danglingReferences,
        recordHeader.IsOrdinary p.1 ∨ recordHeader.IsOrdinary p.2) ∧
      t.danglingReferences = [] := by
  have hregular : recordHeader.Regular := Translation.regular_of_table (by decide)
  have hok : (run { header := "/work/test.h", bitness? := some 64 } "/work" true
      recordHeader).tree.isOk = true := by decide +kernel
  cases hrun : (run { header := "/work/test.h", bitness? := some 64 } "/work" true
      recordHeader).tree with
  | error failure =>
    rw [hrun] at hok
    cases hok
  | ok t =>
    obtain ⟨hnames, hnone⟩ := run_danglingReferences hregular hrun
    exact ⟨hregular, t, rfl, hnames, hnone (by decide +kernel) (by decide +kernel)⟩

/-- A header that defines `char` and a string as macros. -/
def charHeader : Translation where
  types := #[
    { kind := .scalar .int, spelling := "int", size := 4, align := 4 },
    { kind := .scalar .plainSignedChar, spelling := "char", size := 1, align := 1 },
    { kind := .constantArray, spelling := "const char[2]", size := 2, align := 1
      element := ⟨some 1⟩, count := 2 }]
  entities := #[
    { kind := .constant, spelling := "char", file := some "/work/test.h", line := 1
      tokens := [⟨"char", 8, 12⟩, ⟨"1", 13, 14⟩] },
    { kind := .constant, spelling := "S", file := some "/work/test.h", line := 2
      tokens := [⟨"S", 23, 24⟩, ⟨"\"x\"", 25, 28⟩] },
    { kind := .global, spelling := "__sharpbindgen_char", type := ⟨some 0⟩ },
    { kind := .global, spelling := "__sharpbindgen_S", type := ⟨some 2⟩ }]
  header := { top := [⟨some 0⟩, ⟨some 1⟩] }
  typing := { top := [⟨some 2⟩, ⟨some 3⟩] }

/-- It is not enough that no name a type was resolved to is ordinary: the type of strings is declared
without being resolved, and a macro may bear the name of its characters. -/
theorem danglingReferences_charHeader :
    charHeader.Regular ∧ ∃ t : Declarations,
      (run { header := "/work/test.h", bitness? := some 64 } "/work" true charHeader).tree =
        .ok t ∧
      (∀ name ∈ (run { header := "/work/test.h", bitness? := some 64 } "/work" true
        charHeader).resolved, ¬ charHeader.IsOrdinary name) ∧
      t.danglingReferences = [("char*", "char")] := by
  refine ⟨Translation.regular_of_table (by decide), ?_⟩
  have hdangling : (run { header := "/work/test.h", bitness? := some 64 } "/work" true
      charHeader).tree.toOption.map (·.danglingReferences) = some [("char*", "char")] := by
    decide +kernel
  cases hrun : (run { header := "/work/test.h", bitness? := some 64 } "/work" true
      charHeader).tree with
  | error failure =>
    rw [hrun] at hdangling
    cases hdangling
  | ok t =>
    rw [hrun] at hdangling
    exact ⟨t, rfl, by decide +kernel, Option.some.inj hdangling⟩

end CInterop.Extraction
