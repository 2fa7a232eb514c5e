import Mathlib.Logic.Relation
import CInterop.Proofs.Extraction.Origins
import CInterop.Proofs.Header.Typedefs

/-!
# Chains of typedefs end

A typedef of a tree refers to the typedef that stands in its place in the source, or to a name that was
formed for another type. If typedefs of the source lead to one another without a cycle and no typedef has
such a name, then the typedefs of the tree lead to one another without a cycle as well, and following
them from any name ends.

Without the last condition a typedef may refer to itself: one with the name that is formed for the
function pointer that it stands for is taken for the node of that function pointer.
-/

namespace CInterop

open Header

/-! ## Following typedefs -/

/-- Without a cycle among the typedefs following them ends. -/
theorem Header.Tree.resolveTypedef_ne_of_acyclic {t : Declarations}
    (h : ∀ name, ¬Relation.TransGen t.RefersTo name name) (name other : String) :
    t.resolveTypedef name ≠ .error (.typedefCycle other) := by
  intro hresult
  have hfinds := finds_resolveTypedef t name
  rw [hresult] at hfinds
  cases hfinds with
  | cycle hcycle => exact h other hcycle.2

/-! ## Typedefs of a tree -/

namespace Extraction

open FrontEnd

variable {c : Setting}

/-- A typedef of that name in the source stands for the typedef of the other name. -/
def SourceRefersTo (c : Setting) (name underlying : String) : Prop :=
  ∃ r e, (c.entity r).spelling = name ∧ Reaches c (c.entity r).underlying e ∧ e.spelling = underlying

section

variable {s : State} {t : Declarations}

/-- A typedef of the tree that refers to another one stems from a typedef of the source that does. -/
theorem sourceRefersTo (hnodes : ∀ node ∈ t.nodes, Sourced c s node)
    (hown : ∀ node ∈ t.nodes, node.kind = .typedef → ¬Formed c s node.name)
    {name underlying next : String} (hname : t.RefersTo name underlying)
    (hnext : t.RefersTo underlying next) : SourceRefersTo c name underlying := by
  obtain ⟨node, hnode, hbody⟩ := hname
  obtain ⟨other, hother, hotherBody⟩ := hnext
  have heq := Header.node?_name hnode
  have hmem := Header.node?_mem hnode
  have hotherEq := Header.node?_name hother
  have hotherMem := Header.node?_mem hother
  have hsourced := hnodes node hmem
  unfold Sourced at hsourced
  rw [hbody] at hsourced
  obtain ⟨r, hspelling, ⟨e, hreaches, hunderlying⟩ | hformed⟩ := hsourced
  · exact ⟨r, e, hspelling.symm.trans heq, hreaches, hunderlying.symm⟩
  · -- a formed name is not that of a typedef
    have hkind : other.kind = .typedef := by rw [Node.kind, hotherBody, Body.kind]
    exact absurd (hotherEq ▸ hformed) (hown other hotherMem hkind)

/-- So does a whole chain of typedefs. -/
theorem transGen_sourceRefersTo (hnodes : ∀ node ∈ t.nodes, Sourced c s node)
    (hown : ∀ node ∈ t.nodes, node.kind = .typedef → ¬Formed c s node.name)
    {name last next : String} (hchain : Relation.TransGen t.RefersTo name last)
    (hlast : t.RefersTo last next) : Relation.TransGen (SourceRefersTo c) name last := by
  induction hchain using Relation.TransGen.head_induction_on with
  | single hstep => exact .single (sourceRefersTo hnodes hown hstep hlast)
  | head hstep hrest ih =>
    obtain ⟨_, hnext, -⟩ := Relation.TransGen.head'_iff.mp hrest
    exact .head (sourceRefersTo hnodes hown hstep hnext) ih

/-- Where typedefs of the source have no cycle and no typedef has a name that was formed for another
type, the typedefs of the tree have no cycle, and following them from any name does not come upon
one. -/
theorem typedefs_acyclic {s₀ : State} (hregistry : s₀.registry = {}) (hrenames : s₀.tagRenames = [])
    (htree : Build.tree c s₀ = .ok t s)
    (hsource : ∀ name, ¬Relation.TransGen (SourceRefersTo c) name name)
    (hown : ∀ node ∈ t.nodes, node.kind = .typedef → ¬Formed c s node.name) :
    (∀ name, ¬Relation.TransGen t.RefersTo name name) ∧
      ∀ name other, t.resolveTypedef name ≠ .error (.typedefCycle other) := by
  have hnodes := sourced_of_tree (sound_of_empty hregistry hrenames) htree
  have hacyclic (name : String) : ¬Relation.TransGen t.RefersTo name name := by
    intro hchain
    obtain ⟨_, hnext, -⟩ := Relation.TransGen.head'_iff.mp hchain
    exact hsource name (transGen_sourceRefersTo hnodes hown hchain hnext)
  exact ⟨hacyclic, Header.Tree.resolveTypedef_ne_of_acyclic hacyclic⟩

end

/-- A header with a typedef for a typedef. -/
def lengthHeader : Translation where
  types := #[
    { kind := .scalar .int, spelling := "int", size := 4, align := 4 },
    { kind := .typedef, spelling := "Length", size := 4, align := 4, declaration := ⟨some 0⟩
      canonical := ⟨some 0⟩ }]
  entities := #[
    { kind := .typedef, spelling := "Length", file := some "/work/test.h", underlying := ⟨some 0⟩ },
    { kind := .typedef, spelling := "Width", file := some "/work/test.h", underlying := ⟨some 1⟩ }]
  header := { top := [⟨some 0⟩, ⟨some 1⟩] }

def lengthSetting : Setting where
  translation := lengthHeader
  header := "/work/test.h"
  directory := "/work"
  bitness := 64
  arguments := []
  rules := ⟨[]⟩
  isStrict := false
  isVerbose := false

theorem type_lengthSetting (t : TypeRef) :
    t = ⟨some 0⟩ ∨ t = ⟨some 1⟩ ∨ lengthSetting.type t = {} := by
  obtain ⟨_ | _ | _ | n⟩ := t
  · exact .inr (.inr rfl)
  · exact .inl rfl
  · exact .inr (.inl rfl)
  · exact .inr (.inr rfl)

theorem reaches_lengthSetting {t : TypeRef} {e : Entity} (h : Reaches lengthSetting t e) :
    t = ⟨some 1⟩ ∧ e.spelling = "Length" := by
  cases h with
  | typedef hkind =>
    rcases type_lengthSetting t with rfl | rfl | htype
    · cases hkind
    · exact ⟨rfl, rfl⟩
    · rw [htype] at hkind
      cases hkind
  | elaborated hkind _ =>
    rcases type_lengthSetting t with rfl | rfl | htype
    · cases hkind
    · cases hkind
    · rw [htype] at hkind
      cases hkind
  | canonical hvague hne _ =>
    rcases type_lengthSetting t with rfl | rfl | htype
    · cases hvague
    · cases hvague
    · have hcanonical : lengthSetting.canonical t = t := if_pos (by
        show (lengthSetting.type t).canonical.index?.isNone = true
        rw [htype]
        rfl)
      exact absurd (by rw [hcanonical]) hne

theorem sourceRefersTo_lengthSetting {name underlying : String}
    (h : SourceRefersTo lengthSetting name underlying) : name = "Width" ∧ underlying = "Length" := by
  obtain ⟨r, e, rfl, hreaches, rfl⟩ := h
  obtain ⟨hunderlying, hspelling⟩ := reaches_lengthSetting hreaches
  refine ⟨?_, hspelling⟩
  obtain ⟨_ | _ | _ | n⟩ := r
  · cases hunderlying
  · cases hunderlying
  · rfl
  · cases hunderlying

theorem tag?_lengthHeader (t : TypeRef) : lengthHeader.tag? t = none := by
  have hkind : (lengthHeader.type (lengthHeader.unwrap t)).kind ∈
      [.scalar .int, TypeKind.typedef, .invalid] := by
    rcases type_lengthSetting (lengthHeader.unwrap t) with htype | htype | htype
    · rw [htype]
      decide
    · rw [htype]
      decide
    · rw [show lengthHeader.type (lengthHeader.unwrap t) = {} from htype]
      decide
  unfold Translation.tag?
  dsimp only
  split
  · rename_i hrecord
    rw [hrecord] at hkind
    simp at hkind
  · rename_i henumeration
    rw [henumeration] at hkind
    simp at hkind
  · rfl

theorem append_ne {front back name : String} {d : Char} (hback : back.toList.getLast? = some d)
    (hname : name.toList.getLast? ≠ some d) : front ++ back ≠ name := by
  rintro rfl
  rw [String.toList_append, List.getLast?_append, hback] at hname
  exact hname rfl

theorem formed_lengthSetting {s : State} (hnames : s.tagNames = []) (hrenames : s.tagRenames = [])
    {name : String} (h : Formed lengthSetting s name) : name ≠ "Length" ∧ name ≠ "Width" := by
  cases h with
  | @scalar t k hkind =>
    rcases type_lengthSetting t with rfl | rfl | htype
    · decide +kernel
    · cases hkind
    · rw [htype] at hkind
      cases hkind
  | pointer target => exact ⟨append_ne rfl (by decide), append_ne rfl (by decide)⟩
  | array element count => exact ⟨append_ne rfl (by decide), append_ne rfl (by decide)⟩
  | functionPointer result parameters =>
    have hhead : (functionPointerName result parameters).toList.head? = some 'F' := by
      simp [functionPointerName]
    exact ⟨fun h => by simp [h] at hhead, fun h => by simp [h] at hhead⟩
  | anonymous hmem =>
    rw [hnames] at hmem
    cases hmem
  | renamed hmem =>
    rw [hrenames] at hmem
    cases hmem
  | @own t e htag =>
    rw [show lengthSetting.translation.tag? t = none from tag?_lengthHeader t] at htag
    cases htag

/-- Each typedef of that header leads to a type that is none. -/
theorem typedefs_acyclic_lengthSetting :
    ∃ t s, Build.tree lengthSetting {} = .ok t s ∧
      (t.ofKind .typedef).map (·.name) = ["Length", "Width"] ∧
      (Header.Tree.resolveTypedef t "Width").toOption.map (·.name) = some "int" ∧
      (∀ name, ¬Relation.TransGen t.RefersTo name name) ∧
      ∀ name other, t.resolveTypedef name ≠ .error (.typedefCycle other) := by
  have hresult : Build.hasResult (Build.tree lengthSetting) {} (fun t s =>
      decide ((t.ofKind .typedef).map (·.name) = ["Length", "Width"] ∧
      (Header.Tree.resolveTypedef t "Width").toOption.map (·.name) = some "int" ∧
      s.tagNames = [] ∧ s.tagRenames = [])) = true := by
    decide +kernel
  obtain ⟨t, s, htree, htest⟩ := Build.eq_ok_of_hasResult hresult
  obtain ⟨hnodes, hresolved, hnames, hrenames⟩ := of_decide_eq_true htest
  have hacyclic := typedefs_acyclic rfl rfl htree (fun name hchain => ?_) fun node hnode hkind hformed => ?_
  · exact ⟨t, s, htree, hnodes, hresolved, hacyclic⟩
  · -- nothing leads to the name that a chain would begin with
    obtain ⟨_, hfirst, -⟩ := Relation.TransGen.head'_iff.mp hchain
    obtain ⟨_, -, hlast⟩ := Relation.TransGen.tail'_iff.mp hchain
    have heq := (sourceRefersTo_lengthSetting hfirst).1.symm.trans (sourceRefersTo_lengthSetting hlast).2
    exact absurd heq (by decide)
  · have hmem : node.name ∈ (t.ofKind .typedef).map (·.name) :=
      List.mem_map_of_mem (List.mem_filter.mpr ⟨hnode, decide_eq_true hkind⟩)
    obtain ⟨hlength, hwidth⟩ := formed_lengthSetting hnames hrenames hformed
    rw [hnodes] at hmem
    simp [hlength, hwidth] at hmem

end Extraction
end CInterop
