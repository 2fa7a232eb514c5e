import Mathlib.Data.List.Nodup
import Mathlib.Data.List.Perm.Subperm
import CInterop.Proofs.Extraction.Composition

/-!
# What the nodes of a header stem from

Every node of a function pointer is named for its own signature, and every typedef stems from a typedef
of the source: it refers either to the typedef that stands there, or to a name that was formed for a type
of another sort. Such names are formed from other names, from the spellings of types without parts and
of tags, or for tags without a name.

This is an invariant of the whole run. It holds wherever a step stops, so that it holds as well of what
is left when the names of a failed declaration are cut off.
-/

namespace CInterop

/-- Whether only its canonical form can tell what a type of this kind is. -/
def FrontEnd.TypeKind.isVague : FrontEnd.TypeKind → Bool
  | .invalid | .unexposed | .other _ => true
  | _ => false

namespace Extraction

open FrontEnd Header
open Macro (Candidate)

/-! ## Names that are kept apart -/

/-- A new name that is taken nevertheless was tried after as many others that are taken. -/
theorem freshName_mem {taken : List String} {steps : Nat} {name : String}
    (h : freshName taken steps name ∈ taken) :
    ∃ names : List String, names.length = steps + 1 ∧ names.Nodup ∧ names ⊆ taken ∧
      ∀ other ∈ names, name.length ≤ other.length := by
  induction steps generalizing name with
  | zero =>
    exact ⟨[name], rfl, List.nodup_singleton _, List.cons_subset.mpr ⟨h, List.nil_subset _⟩,
      fun other hother => List.mem_singleton.mp hother ▸ Nat.le_refl _⟩
  | succ steps ih =>
    unfold freshName at h
    split at h
    · rename_i htaken
      obtain ⟨names, hlength, hnodup, hsub, hlonger⟩ := ih h
      -- the names that are tried later are longer, so that this one is not among them
      have hlength' : (name ++ "_").length = name.length + 1 := by rw [String.length_append]; rfl
      have hnew : name ∉ names := by
        intro hmem
        have hle := hlonger name hmem
        omega
      refine ⟨name :: names, by rw [List.length_cons, hlength], List.nodup_cons.mpr ⟨hnew, hnodup⟩,
        List.cons_subset.mpr ⟨List.contains_iff_mem.mp htaken, hsub⟩, ?_⟩
      rw [List.forall_mem_cons]
      exact ⟨Nat.le_refl _, fun other hother => by have := hlonger other hother; omega⟩
    · rename_i hfree
      exact absurd (List.contains_iff_mem.mpr h) hfree

/-- With as many steps as there are names a new name is none of them. -/
theorem freshName_notMem (taken : List String) (name : String) :
    freshName taken taken.length name ∉ taken := by
  intro h
  obtain ⟨names, hlength, hnodup, hsub, -⟩ := freshName_mem h
  have hle := (hnodup.subperm hsub).length_le
  omega

/-! ## What a type may be called -/

/-- The type is the typedef, after keywords and forms that tell nothing. -/
inductive Reaches (c : Setting) : TypeRef → Entity → Prop where
  | typedef {t : TypeRef} : (c.type t).kind = .typedef →
      Reaches c t (c.entity (c.type t).declaration)
  | elaborated {t : TypeRef} {e : Entity} : (c.type t).kind = .elaborated →
      Reaches c (c.type t).named e → Reaches c t e
  | canonical {t : TypeRef} {e : Entity} : (c.type t).kind.isVague = true →
      (c.type (c.canonical t)).kind ≠ (c.type t).kind → Reaches c (c.canonical t) e → Reaches c t e

/-- The name may have been formed for a type that is no typedef, with what was decided about tags. -/
inductive Formed (c : Setting) (s : State) : String → Prop where
  | scalar {t : TypeRef} {k : Scalar} : (c.type t).kind = .scalar k →
      Formed c s (cleanSpelling (c.type (c.canonical t)).spelling)
  | pointer (target : String) : Formed c s (target ++ "*")
  | array (element : String) (count : Int) : Formed c s s!"{element}[{count}]"
  | functionPointer (result : String) (parameters : List String) :
      Formed c s (functionPointerName result parameters)
  /-- A tag without a name was given one. -/
  | anonymous {spot : String × Int × Int} {name : String} : (spot, name) ∈ s.tagNames →
      Formed c s name
  /-- A tag was renamed, as its name is that of something else. -/
  | renamed {key : String × String} {name : String} : (key, name) ∈ s.tagRenames →
      name ∉ c.ordinaryNames → Formed c s name
  | own {t : TypeRef} {e : Entity} : c.translation.tag? t = some e →
      e.spelling ∉ c.ordinaryNames → Formed c s e.spelling

/-- The name is that of the typedef that the type is, or may have been formed for it. -/
def Designates (c : Setting) (s : State) (t : TypeRef) (name : String) : Prop :=
  (∃ e, Reaches c t e ∧ name = e.spelling) ∨ Formed c s name

/-- A typedef stems from the source, and a function pointer is named for its signature. -/
def Sourced (c : Setting) (s : State) (node : Declaration) : Prop :=
  match node.body with
  | .typedef underlying =>
    ∃ r, node.name = (c.entity r).spelling ∧ Designates c s (c.entity r).underlying underlying
  | .functionPointer result parameters _ =>
    node.name = functionPointerName result (parameters.map (·.type))
  | _ => True

/-- All nodes stem from the source, and the new names of tags are those of nothing else. -/
structure Sound (c : Setting) (s : State) : Prop where
  nodes : ∀ node ∈ s.registry.nodes, Sourced c s node
  renames : ∀ key name, (key, name) ∈ s.tagRenames → name ∉ c.ordinaryNames

/-- What was decided about tags stays decided. -/
structure Tagged (s s' : State) : Prop where
  names : s.tagNames ⊆ s'.tagNames
  renames : s.tagRenames ⊆ s'.tagRenames

section

variable {c : Setting} {s s' s'' : State} {t : TypeRef} {e : Entity} {name : String}

theorem Tagged.refl (s : State) : Tagged s s := ⟨List.Subset.refl _, List.Subset.refl _⟩

theorem Tagged.trans (h : Tagged s s') (h' : Tagged s' s'') : Tagged s s'' :=
  ⟨List.Subset.trans h.names h'.names, List.Subset.trans h.renames h'.renames⟩

theorem Formed.mono (h : Tagged s s') (hname : Formed c s name) : Formed c s' name := by
  cases hname with
  | scalar hkind => exact .scalar hkind
  | pointer target => exact .pointer target
  | array element count => exact .array element count
  | functionPointer result parameters => exact .functionPointer result parameters
  | anonymous hmem => exact .anonymous (h.names hmem)
  | renamed hmem hnew => exact .renamed (h.renames hmem) hnew
  | own htag hnew => exact .own htag hnew

theorem Designates.mono (h : Tagged s s') (hname : Designates c s t name) :
    Designates c s' t name :=
  hname.imp_right (Formed.mono h)

theorem Sourced.mono {node : Declaration} (h : Tagged s s') (hnode : Sourced c s node) :
    Sourced c s' node := by
  unfold Sourced at hnode ⊢
  split at hnode
  · obtain ⟨r, hname, hunderlying⟩ := hnode
    exact ⟨r, hname, hunderlying.mono h⟩
  · exact hnode
  · trivial

/-- A type that names a tag directly is no typedef. -/
theorem not_reaches_of_unwrapWithin {steps : Nat}
    (h : (c.type (c.translation.unwrapWithin steps t)).kind = .record ∨
      (c.type (c.translation.unwrapWithin steps t)).kind = .enumeration) : ¬ Reaches c t e := by
  -- both take keywords off one after another, and a tag is no typedef
  induction steps generalizing t with
  | zero =>
    intro hreaches
    unfold Translation.unwrapWithin at h
    cases hreaches with
    | typedef hkind | elaborated hkind => simp [hkind] at h
    | canonical hvague => rcases h with h | h <;> rw [h] at hvague <;> cases hvague
  | succ steps ih =>
    intro hreaches
    unfold Translation.unwrapWithin at h
    split at h
    · rename_i helaborated
      have hkind : (c.type t).kind = .elaborated := helaborated
      cases hreaches with
      | typedef hkind' => rw [hkind] at hkind'; cases hkind'
      | elaborated _ hnamed => exact ih h hnamed
      | canonical hvague => rw [hkind] at hvague; cases hvague
    · rename_i hnot
      cases hreaches with
      | typedef hkind => simp [hkind] at h
      | elaborated hkind => exact hnot hkind
      | canonical hvague => rcases h with h | h <;> rw [h] at hvague <;> cases hvague

/-- What a type that names a tag stands for is a record or an enumeration. -/
theorem kind_of_tag? {tag : Entity} (h : c.translation.tag? t = some tag) :
    (c.type (c.translation.unwrap t)).kind = .record ∨
      (c.type (c.translation.unwrap t)).kind = .enumeration := by
  unfold Translation.tag? at h
  dsimp only at h
  split at h
  · exact .inl ‹_›
  · exact .inr ‹_›
  · cases h

theorem not_reaches_of_tag? {tag : Entity} (h : c.translation.tag? t = some tag) :
    ¬ Reaches c t e :=
  not_reaches_of_unwrapWithin (kind_of_tag? h)

/-- A record or an enumeration is the tag it names. -/
theorem tag?_of_kind (h : (c.type t).kind = .record ∨ (c.type t).kind = .enumeration) :
    c.translation.tag? t =
      some (c.entity (c.translation.definitionOf (c.type t).declaration)) := by
  have hunwrap : c.translation.unwrap t = t := by
    unfold Translation.unwrap Translation.unwrapWithin
    refine if_neg fun helaborated => ?_
    have hkind : (c.type t).kind = .elaborated := helaborated
    rcases h with h | h <;> rw [hkind] at h <;> cases h
  unfold Translation.tag?
  rw [hunwrap]
  dsimp only
  split
  · rfl
  · rfl
  · rename_i hrecord henumeration
    rcases h with h | h
    · exact absurd h hrecord
    · exact absurd h henumeration

end

/-! ## The nodes after each operation on the registry -/

namespace Registry

variable {r : Registry} {node other : Declaration} {name : String}

theorem nodes_reserve (r : Registry) (name : String) : (r.reserve name).nodes = r.nodes := by
  unfold reserve
  split
  · rfl
  · rw [nodes, List.filterMap_append]
    exact List.append_nil _

theorem mem_nodes_declare (h : other ∈ (r.declare node).nodes) : other = node ∨ other ∈ r.nodes := by
  obtain ⟨slot, hslot, hother⟩ := List.mem_filterMap.mp h
  obtain ⟨before, hbefore, rfl⟩ := List.mem_map.mp hslot
  split at hother
  · exact .inl (Option.some.inj hother).symm
  · rw [← nodes_reserve r node.name]
    exact .inr (List.mem_filterMap.mpr ⟨before, hbefore, hother⟩)

theorem nodes_cut_subset (n : Nat) : (r.cut n).nodes ⊆ r.nodes :=
  ((List.take_sublist n r.slots).filterMap _).subset

theorem nodes_release_subset : (r.release name).nodes ⊆ r.nodes :=
  (List.filter_sublist.filterMap _).subset

end Registry

end Extraction
end CInterop
