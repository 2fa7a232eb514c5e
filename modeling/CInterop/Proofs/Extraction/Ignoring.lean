import CInterop.Proofs.Extraction.Opening

/-!
# Files to be ignored

Functions, variables and macros of a tree are those that were visited, so that none of them is predefined,
in a system header or in a file to be ignored. Types of such a file are in a tree if they are needed,
and every one of them is announced once. What was announced is not forgotten where a declaration is
undone, so that a type that is declared again is not announced again.
-/

namespace CInterop.Extraction

open FrontEnd Header
open Macro (Candidate)

section

variable {c : Setting} {s s' : State} {name : String}

/-! ## What is announced -/

/-- How often the type was announced. -/
def announcements (name : String) (diagnostics : List Diagnostic) : Nat :=
  diagnostics.countP (·.announced? = some name)

/-- Everything that counts as announced was announced once, and nothing else was. -/
def AnnouncesOnce (s : State) : Prop :=
  ∀ name, announcements name s.diagnostics = if name ∈ s.announced then 1 else 0

theorem announcements_append (name : String) (diagnostics : List Diagnostic) (d : Diagnostic) :
    announcements name (diagnostics ++ [d]) =
      announcements name diagnostics + if d.announced? = some name then 1 else 0 := by
  unfold announcements
  rw [List.countP_append, List.countP_singleton]
  simp only [decide_eq_true_eq]

theorem AnnouncesOnce.change (h : Change c s s') (hs : AnnouncesOnce s) : AnnouncesOnce s' := by
  intro other
  cases h with
  | told hnone =>
    rw [announcements_append, hnone, if_neg (by nofun), Nat.add_zero]
    exact hs other
  | @announced e name reason hnew _ =>
    have hown : Diagnostic.announced? ⟨.ignoredTypeUsed name reason, some (c.placeText e)⟩ =
        some name := rfl
    rw [announcements_append, hs other, hown]
    by_cases heq : name = other
    · subst heq
      rw [if_neg hnew, if_pos rfl, if_pos List.mem_cons_self]
    · rw [if_neg fun h => heq (Option.some.inj h), Nat.add_zero]
      exact if_congr (by simp [Ne.symm heq]) rfl rfl
  | _ => exact hs other

theorem AnnouncesOnce.course (h : Course c s s') (hs : AnnouncesOnce s) : AnnouncesOnce s' := by
  induction h with
  | refl => exact hs
  | tail _ hchange ih => exact ih.change hchange

/-- The messages of the front end announce nothing. -/
theorem Opened.announcesOnce (h : Opened c s) : AnnouncesOnce s := by
  intro name
  rw [h.announced, if_neg List.not_mem_nil, h.diagnostics, announcements, List.countP_eq_zero]
  intro d hd
  obtain ⟨m, -, rfl⟩ := List.mem_map.mp hd
  exact (by nofun)

/-! ## What is collected -/

/-- The macro is one that was visited. -/
def IsVisitedMacro (c : Setting) (m : Candidate) : Prop :=
  ∃ e, IsVisited c e ∧ e.kind = .constant ∧ m.name = e.spelling ∧ m.place = c.place? e

theorem Change.candidates (h : Change c s s') {m : Candidate} (hm : m ∈ s'.candidates) :
    m ∈ s.candidates ∨ IsVisitedMacro c m := by
  cases h with
  | @collected e _ hvisited hkind =>
    rcases List.mem_append.mp hm with hold | hnew
    · exact .inl hold
    · rw [List.mem_singleton] at hnew
      subst hnew
      exact .inr ⟨e, hvisited, hkind, rfl, rfl⟩
  | _ => exact .inl hm

theorem Course.candidates (h : Course c s s') {m : Candidate} (hm : m ∈ s'.candidates) :
    m ∈ s.candidates ∨ IsVisitedMacro c m := by
  induction h with
  | refl => exact .inl hm
  | tail _ hchange ih =>
    rcases hchange.candidates hm with hold | hvisited
    · exact ih hold
    · exact .inr hvisited

end

/-! ## Whole runs -/

/-- The node is the function, the variable or the constant that the entity of the header declares. -/
structure Introduces (c : Setting) (e : Entity) (node : Declaration) : Prop where
  visited : IsVisited c e
  kind : (e.kind, node.kind) ∈
    [(EntityKind.function, Kind.function), (.global, .global), (.constant, .constant)]
  name : node.name = e.spelling
  location : node.location = c.place? e

/-- The node is the type that the entity of the source declares, a tag under a name that it is called by
or a typedef. -/
inductive Defines (c : Setting) (s : State) (e : Entity) : Declaration → Prop where
  | tag {name : String} {body : Body String Int Bool} : IsTag c e → Called c s e name →
      Describes c e body → Defines c s e ⟨name, body, c.place? e⟩
  | typedef {underlying : String} : Designates c s e.underlying underlying →
      Defines c s e ⟨e.spelling, .typedef underlying, c.place? e⟩

section

variable {options : Options} {directory : String} {isFile : Bool} {translation : Translation}
  {c : Setting}

/-- Functions, variables and constants of a tree are those of the header that are not to be ignored. A
record, an enumeration or a typedef that is declared in a file to be ignored is announced once, and
nothing is announced twice. -/
theorem run_announces (hc : c = options.setting directory translation) {t : Declarations}
    (hrun : (run options directory isFile translation).tree = .ok t) :
    ∃ s₀ s, Opened c s₀ ∧ Build.tree c s₀ = .ok t s ∧
      (run options directory isFile translation).diagnostics = s.diagnostics ∧
      (∀ node ∈ t.nodes, node.kind ∈ [Kind.function, .global, .constant] →
        ∃ e, Introduces c e node) ∧
      (∀ node ∈ t.nodes, node.kind ∈ [Kind.record, .incomplete, .enumeration, .typedef] →
        ∃ e, Defines c s e node ∧
          (c.ignores e = true → announcements node.name s.diagnostics = 1)) ∧
      ∀ name, announcements name s.diagnostics ≤ 1 := by
  obtain ⟨s₀, s, hopened, htree, hresult⟩ := run_eq_ok hc hrun
  refine ⟨s₀, s, hopened, htree, by rw [hresult]; rfl, ?_⟩
  have hstems := hopened.stems htree
  have hcourse := (course_of_tree hopened.sound htree).1
  have honce : AnnouncesOnce s := hopened.announcesOnce.course hcourse
  refine ⟨fun node hnode hkind => ?_, fun node hnode hkind => ?_, fun name => ?_⟩
  · cases hstems node hnode with
    | @function e _ hvisited he hbody =>
      exact ⟨e, hvisited, by simp [Node.kind, he, hbody], rfl, rfl⟩
    | @global e _ hvisited he hbody =>
      exact ⟨e, hvisited, by simp [Node.kind, he, hbody], rfl, rfl⟩
    | @constant m type hm =>
      rcases hcourse.candidates hm with hold | ⟨e, hvisited, he, hname, hplace⟩
      · rw [hopened.candidates] at hold
        cases hold
      · exact ⟨e, hvisited, by rw [he]; simp [Node.kind, Build.constantOf, Body.kind], hname, hplace⟩
    | tag _ _ hbody _ => cases hbody <;> simp [Node.kind, Body.kind] at hkind
    | _ => simp [Node.kind, Body.kind] at hkind
  · have hannounced {e : Entity} {name : String} (h : c.ignores e = true → name ∈ s.announced)
        (hignored : c.ignores e = true) : announcements name s.diagnostics = 1 := by
      rw [honce name, if_pos (h hignored)]
    cases hstems node hnode with
    | @tag e _ _ htag hcalled hbody hignored =>
      exact ⟨e, .tag htag hcalled hbody, hannounced hignored⟩
    | @typedef r _ hunderlying hignored =>
      exact ⟨c.entity r, .typedef hunderlying, hannounced hignored⟩
    | function _ _ hbody | global _ _ hbody =>
      rw [Node.kind, hbody] at hkind
      simp at hkind
    | _ => simp [Node.kind, Body.kind, Build.constantOf] at hkind
  · rw [honce name]
    split <;> omega

end

/-- A header that uses a record and a typedef of another file, the record also in a function that is
undone. The other file has a function and a macro of its own. -/
def vaultHeader : Translation where
  types := #[
    { kind := .scalar .int, spelling := "int", size := 4, align := 4 },
    { kind := .record, spelling := "struct blob", size := 4, align := 4, declaration := ⟨some 0⟩
      fields := [⟨some 1⟩] },
    { kind := .pointer, spelling := "struct blob *", size := 8, align := 8, pointee := ⟨some 1⟩ },
    { kind := .typedef, spelling := "blob_t", canonical := ⟨some 1⟩, size := 4, align := 4
      declaration := ⟨some 2⟩ },
    { kind := .other ("VECTOR"), spelling := "v4", size := 16, align := 16 }]
  entities := #[
    { kind := .struct, spelling := "blob", file := some "/work/vault.h", line := 1, type := ⟨some 1⟩
      definition := ⟨some 0⟩ },
    { kind := .other ("FIELD_DECL"), spelling := "size", type := ⟨some 0⟩ },
    { kind := .typedef, spelling := "blob_t", file := some "/work/vault.h", line := 2
      underlying := ⟨some 1⟩ },
    { kind := .function, spelling := "seal", file := some "/work/vault.h", line := 3
      result := ⟨some 0⟩, parameters := [⟨some 7⟩] },
    { kind := .constant, spelling := "LIMIT", file := some "/work/vault.h", line := 4
      tokens := [⟨"LIMIT", 90, 95⟩, ⟨"3", 96, 97⟩] },
    { kind := .function, spelling := "mix", file := some "/work/test.h", line := 2
      result := ⟨some 0⟩, parameters := [⟨some 7⟩, ⟨some 8⟩] },
    { kind := .function, spelling := "open", file := some "/work/test.h", line := 3
      result := ⟨some 0⟩, parameters := [⟨some 7⟩, ⟨some 9⟩] },
    { kind := .other ("PARM_DECL"), spelling := "b", type := ⟨some 2⟩ },
    { kind := .other ("PARM_DECL"), spelling := "v", type := ⟨some 4⟩ },
    { kind := .other ("PARM_DECL"), spelling := "t", type := ⟨some 3⟩ }]
  header := { top := [⟨some 4⟩, ⟨some 0⟩, ⟨some 2⟩, ⟨some 3⟩, ⟨some 5⟩, ⟨some 6⟩] }

/-- Reading that header without the other file. -/
def vaultOptions : Options where
  header := "/work/test.h"
  bitness? := some 64
  ignoredFiles := ["vault.h"]

/-- The record is announced once, although it was declared again after the function that is undone. -/
theorem run_announces_vaultHeader :
    ∃ t s₀ s, (run vaultOptions "/work" true vaultHeader).tree = .ok t ∧
      t.names = ["int", "blob", "blob*", "blob_t", "open"] ∧
      Opened (vaultOptions.setting "/work" vaultHeader) s₀ ∧
      Build.tree (vaultOptions.setting "/work" vaultHeader) s₀ = .ok t s ∧
      (∀ node ∈ t.nodes, node.kind ∈ [Kind.function, .global, .constant] →
        ∃ e, Introduces (vaultOptions.setting "/work" vaultHeader) e node) ∧
      (∀ node ∈ t.nodes, node.kind ∈ [Kind.record, .incomplete, .enumeration, .typedef] →
        ∃ e, Defines (vaultOptions.setting "/work" vaultHeader) s e node ∧
          ((vaultOptions.setting "/work" vaultHeader).ignores e = true →
            announcements node.name s.diagnostics = 1)) ∧
      announcements "blob" s.diagnostics = 1 ∧ announcements "blob_t" s.diagnostics = 1 ∧
      s.diagnostics.length = 3 := by
  have hnames : (run vaultOptions "/work" true vaultHeader).tree.toOption.map (·.names) =
      some ["int", "blob", "blob*", "blob_t", "open"] := by decide +kernel
  have hannounced : (run vaultOptions "/work" true vaultHeader).diagnostics.map (·.announced?) =
      [some "blob", none, some "blob_t"] := by decide +kernel
  cases hrun : (run vaultOptions "/work" true vaultHeader).tree with
  | error failure =>
    rw [hrun] at hnames
    cases hnames
  | ok t =>
    rw [hrun] at hnames
    obtain ⟨s₀, s, hopened, htree, hdiagnostics, hfunctions, htypes, -⟩ := run_announces rfl hrun
    rw [hdiagnostics] at hannounced
    have hcount (name : String) : announcements name s.diagnostics =
        [some "blob", none, some "blob_t"].countP (· = some name) := by
      rw [← hannounced, List.countP_map]
      rfl
    refine ⟨t, s₀, s, rfl, Option.some.inj hnames, hopened, htree, hfunctions, htypes, ?_, ?_, ?_⟩
    · rw [hcount]
      decide
    · rw [hcount]
      decide
    · rw [← List.length_map, hannounced]
      rfl

end CInterop.Extraction
