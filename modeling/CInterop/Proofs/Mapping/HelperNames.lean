import CInterop.Proofs.Mapping.Helpers
import CInterop.Proofs.Mapping.Mention
import CInterop.Proofs.Mapping.Unfolding
import CInterop.Proofs.Number.EnglishWords

/-!
# Names of helpers

The name of a helper is all that an array is looked up by. It is made from the identifier part of the
element's spelling and the number of elements in words, and tells both, unless one identifier part is
another one with number words behind it. Elements of different spellings may have one identifier part. So
helpers and arrays belong together as long as the identifier parts tell the elements apart and nothing else
is called like one of the helpers.
-/

namespace CInterop.Mapping

open Header
open Binding (TypeUse escape identifierPart fixedBufferName?)
open EnglishWords (cardinal? joined)

/-! ## What a name tells -/

/-- The longer text is the other one with number words behind it, which are the words that the count has
more than the other count. -/
def FollowedByWords (text : String) (count : Int) (longer : String) (count' : Int) : Prop :=
  ∃ first rest, cardinal? count = some (first ++ rest) ∧ cardinal? count' = some rest ∧ first ≠ [] ∧
    longer = joined text first

section

variable {label label' text longer name : String} {count count' : Int}

theorem fixedBufferName?_eq_some (h : fixedBufferName? label count = some text) :
    ∃ words, cardinal? count = some words ∧
      text = joined ("FixedBuffer_" ++ identifierPart label) words := by
  obtain ⟨words, hwords, rfl⟩ := Option.map_eq_some_iff.mp h
  exact ⟨words, hwords, rfl⟩

theorem prefix_of_eq_append {a b c : String} (h : a = b ++ c) : b.toList <+: a.toList := by
  rw [h, String.toList_append]
  exact List.prefix_append _ _

theorem FollowedByWords.begins (h : FollowedByWords text count longer count') :
    (text ++ "_").toList <+: longer.toList := by
  obtain ⟨first, _, -, -, -, rfl⟩ := h
  exact prefix_of_eq_append rfl

theorem joined_append (a b : String) (words : List String) :
    joined (a ++ b) words = a ++ joined b words := by
  rw [joined, joined, String.append_assoc, String.append_assoc, String.append_assoc]

theorem FollowedByWords.fixedBufferName?_eq
    (h : FollowedByWords (identifierPart label) count (identifierPart label') count') :
    fixedBufferName? label count = fixedBufferName? label' count' := by
  obtain ⟨first, rest, hcount, hcount', hne, hpart⟩ := h
  have hjoined := EnglishWords.joined_joined ("FixedBuffer_" ++ identifierPart label)
    (EnglishWords.cardinal?_subset hcount) hne (EnglishWords.cardinal?_ne_nil hcount')
  rw [fixedBufferName?, fixedBufferName?, hcount, hcount', hpart]
  show some (joined ("FixedBuffer_" ++ identifierPart label) (first ++ rest)) =
    some (joined ("FixedBuffer_" ++ joined (identifierPart label) first) rest)
  rw [← joined_append, hjoined]

/-- A helper's name tells the identifier part of the element and the number of elements, but for number
words that may belong to either. -/
theorem fixedBufferName?_eq_iff (h : fixedBufferName? label count = some text) :
    fixedBufferName? label' count' = some text ↔
      (identifierPart label = identifierPart label' ∧ count = count') ∨
      FollowedByWords (identifierPart label) count (identifierPart label') count' ∨
      FollowedByWords (identifierPart label') count' (identifierPart label) count := by
  constructor
  · intro h'
    obtain ⟨words, hwords, rfl⟩ := fixedBufferName?_eq_some h
    obtain ⟨words', hwords', hsame⟩ := fixedBufferName?_eq_some h'
    rcases EnglishWords.joined_eq (EnglishWords.cardinal?_subset hwords)
      (EnglishWords.cardinal?_ne_nil hwords) (EnglishWords.cardinal?_subset hwords')
      (EnglishWords.cardinal?_ne_nil hwords') hsame with
      ⟨hpart, rfl⟩ | ⟨first, hne, rfl, hpart⟩ | ⟨first, hne, rfl, hpart⟩
    · exact .inl ⟨(String.append_right_inj _).mp hpart, EnglishWords.cardinal?_injective hwords hwords'⟩
    · rw [joined_append] at hpart
      exact .inr (.inl ⟨first, words', hwords, hwords', hne, (String.append_right_inj _).mp hpart⟩)
    · rw [joined_append] at hpart
      exact .inr (.inr ⟨first, words, hwords', hwords, hne, (String.append_right_inj _).mp hpart⟩)
  · rintro (⟨hpart, rfl⟩ | hwords | hwords)
    · rw [← h, fixedBufferName?, fixedBufferName?, hpart]
    · rw [← hwords.fixedBufferName?_eq, h]
    · rw [hwords.fixedBufferName?_eq, h]

theorem fixedBufferName?_begins (h : fixedBufferName? label count = some text) :
    ∃ rest, text = "FixedBuffer_" ++ rest := by
  obtain ⟨words, -, rfl⟩ := fixedBufferName?_eq_some h
  exact ⟨_, joined_append _ _ _⟩

/-! ## Escaped names -/

theorem escape_cases (name : String) : escape name = name ∨ escape name = "@" ++ name := by
  unfold escape
  split
  · exact .inr rfl
  · exact .inl rfl

theorem escape_injective {name name' : String} (h : ∀ rest, name ≠ "@" ++ rest)
    (h' : ∀ rest, name' ≠ "@" ++ rest) (hsame : escape name = escape name') : name = name' := by
  rcases escape_cases name with hname | hname <;> rcases escape_cases name' with hname' | hname' <;>
    rw [hname, hname'] at hsame
  · exact hsame
  · exact absurd hsame (h name')
  · exact absurd hsame.symm (h' name)
  · exact (String.append_right_inj _).mp hsame

/-- What is declared under a helper's name has no mark. -/
theorem escape_of_helper {rest : String} (h : escape name = "FixedBuffer_" ++ rest) :
    escape name = name := by
  rcases escape_cases name with hname | hname
  · exact hname
  · rw [hname] at h
    have hhead := congrArg (·.toList.head?) h
    simp at hhead

end

/-! ## Arrays that need a helper -/

/-- What a helper is for: the use of the elements, their number, and the size of the array. -/
structure ArrayUse where
  element : TypeUse
  count : Int
  size : Int

/-- The spelling of the elements, with their own number if they are buffers. -/
def ArrayUse.label (a : ArrayUse) : String :=
  match a.element.count with
  | some inner => a.element.name ++ toString inner
  | none => a.element.name

/-- The name of the helper, if the count has one. -/
def ArrayUse.name? (a : ArrayUse) : Option String := fixedBufferName? a.label a.count

/-- What the array needs a helper for, if the node is an array that no buffer can hold. -/
def arrayUse? (s : Setting) (node : Declaration) : Option ArrayUse :=
  match node.body with
  | .array element count size =>
    match (elementUse (typeUse s) s element).result with
    | .ok inner =>
      if bufferTypes.contains inner.name && !inner.isFixedBuffer then none
      else some ⟨inner, count, size⟩
    | .error _ => none
  | _ => none

/-- All arrays of the tree that need a helper. -/
def arrayUses (s : Setting) : List ArrayUse := s.tree.nodes.filterMap (arrayUse? s)

/-- The declaration is a helper for an array of the tree. -/
def IsHelper (s : Setting) (d : Binding.Declaration) : Prop :=
  ∃ a ∈ arrayUses s, a.name? = some d.name ∧ d.body = .fixedBuffer a.element a.count a.size

section

variable {s : Setting} {node : Declaration} {element : String} {count size : Int} {inner : TypeUse}

theorem arrayUse?_eq_some (hbody : node.body = .array element count size)
    (hinner : (elementUse (typeUse s) s element).result = .ok inner)
    (hbuffer : (bufferTypes.contains inner.name && !inner.isFixedBuffer) = false) :
    arrayUse? s node = some ⟨inner, count, size⟩ := by
  rw [arrayUse?, hbody]
  dsimp only
  rw [hinner]
  dsimp only
  rw [hbuffer, if_neg Bool.false_ne_true]

/-- What an array needs a helper for is the use of its elements. -/
theorem body_of_arrayUse? {a : ArrayUse} (h : arrayUse? s node = some a) :
    ∃ element, node.body = .array element a.count a.size ∧
      (elementUse (typeUse s) s element).result = .ok a.element := by
  unfold arrayUse? at h
  split at h
  · rename_i hbody
    split at h
    · rename_i hinner
      split at h
      · cases h
      · cases h
        exact ⟨_, hbody, hinner⟩
    · cases h
  · cases h

/-- A helper bears the name that belongs to its array. -/
theorem name?_of_arrayHelper {array text : String}
    (h : (arrayHelper array inner count size).result = .ok text) :
    (ArrayUse.mk inner count size).name? = some text := by
  unfold arrayHelper at h
  unfold ArrayUse.name? ArrayUse.label
  dsimp only at h ⊢
  split at h
  · cases h
  · rename_i name hname
    cases h
    exact hname

theorem admits_isHelper {steps : Nat} (hsteps : steps ≤ s.tree.nodes.length) :
    Admits s node (useWithin s steps) (fun event => ∀ d, event = .helper d → IsHelper s d) where
  unmappable _ _ _ _ h := by cases h
  unusual _ _ _ _ _ h := by cases h
  ignored _ _ _ _ h := by cases h
  helper array harray element count size inner hbody hinner hbuffer := by
    have huse := (extends_typeUse s (Nat.le_succ_of_le hsteps)).elementUse hinner
    have hmem : ArrayUse.mk inner count size ∈ arrayUses s :=
      List.mem_filterMap.mpr ⟨array, harray, arrayUse?_eq_some hbody huse hbuffer⟩
    exact every_arrayHelper fun name hname d hd => by
      cases hd
      exact ⟨_, hmem, name?_of_arrayHelper hname, rfl⟩

/-- Whatever is asked for is a helper for an array of the tree. -/
theorem isHelper_of_event {d : Binding.Declaration} (h : .helper d ∈ (declaration? s node).events) :
    IsHelper s d :=
  every_declaration? (fun _ hsteps => admits_isHelper hsteps) _ h d rfl

variable {b : Binding.Bindings}

/-- What is declared for a node, or asked for on the way there. -/
theorem exists_made (hrun : (run s).bindings = .ok b) {d : Binding.Declaration}
    (hd : d ∈ b.declarations) :
    ∃ node ∈ s.tree.nodes, isMapped s node = true ∧
      (.helper d ∈ (declaration? s node).events ∨ (declaration? s node).result = .ok (some d)) := by
  obtain ⟨before, after, hsplit⟩ := List.append_of_mem hd
  obtain ⟨node, hnode, ⟨hmapped, -⟩, events, hmade, -⟩ := ordered_run hrun before d after hsplit
  refine ⟨node, hnode, hmapped, ?_⟩
  cases hmade with
  | node hresult => exact .inr hresult
  | helper hevents =>
    rw [hevents]
    exact .inl (List.mem_append_right _ List.mem_cons_self)

/-- What is declared is a helper for an array, or what a node is mapped to. -/
theorem isHelper_or_declared (hrun : (run s).bindings = .ok b) {d : Binding.Declaration}
    (hd : d ∈ b.declarations) :
    IsHelper s d ∨ ∃ node ∈ s.tree.nodes, declared? s node = some d := by
  obtain ⟨node, hnode, hmapped, hhelper | hresult⟩ := exists_made hrun hd
  · exact .inl (isHelper_of_event hhelper)
  · refine .inr ⟨node, hnode, ?_⟩
    rw [declared?, if_pos hmapped, hresult]
    rfl

/-! ## Names in a binding -/

/-- The names of helpers tell the arrays apart, and the helpers from what is mapped: of as many elements,
arrays with one identifier part are of one use and one size; no identifier part is another one with number
words behind it that make up for the count; and no node that is mapped is called like the helper of an
array. -/
structure HelpersApart (s : Setting) : Prop where
  uses : ∀ a ∈ arrayUses s, ∀ a' ∈ arrayUses s,
    identifierPart a.label = identifierPart a'.label → a.count = a'.count →
    a.element.name = a'.element.name ∧ a.element.count = a'.element.count ∧ a.size = a'.size
  words : ∀ a ∈ arrayUses s, ∀ a' ∈ arrayUses s,
    ¬FollowedByWords (identifierPart a.label) a.count (identifierPart a'.label) a'.count
  reserved : ∀ node ∈ s.tree.nodes, isMapped s node = true →
    ∀ a ∈ arrayUses s, a.name? ≠ some node.name

/-- Two arrays with a helper of one name are of one use. -/
theorem HelpersApart.same (apart : HelpersApart s) {a a' : ArrayUse} {text : String}
    (ha : a ∈ arrayUses s) (ha' : a' ∈ arrayUses s) (hname : a.name? = some text)
    (hname' : a'.name? = some text) :
    a.element.name = a'.element.name ∧ a.element.count = a'.element.count ∧ a.count = a'.count ∧
      a.size = a'.size := by
  rcases (fixedBufferName?_eq_iff hname).mp hname' with ⟨hpart, hcount⟩ | hwords | hwords
  · obtain ⟨helement, hinner, hsize⟩ := apart.uses a ha a' ha' hpart hcount
    exact ⟨helement, hinner, hcount, hsize⟩
  · exact absurd hwords (apart.words a ha a' ha')
  · exact absurd hwords (apart.words a' ha' a ha)

/-- What a node is mapped to is not called like a helper. -/
theorem HelpersApart.name_ne (apart : HelpersApart s) {d : Binding.Declaration}
    (hnode : node ∈ s.tree.nodes) (hd : declared? s node = some d) {a : ArrayUse}
    (ha : a ∈ arrayUses s) : a.name? ≠ some d.name := by
  intro hname
  obtain ⟨rest, hrest⟩ := fixedBufferName?_begins hname
  have hescape := (standsFor_of_declared? hd).name
  have hplain := escape_of_helper (hescape.symm.trans hrest)
  refine apart.reserved node hnode (isMapped_of_declared? hd) a ha ?_
  rw [hname, hescape, hplain]

/-- Nodes of distinct names that do not begin with the mark for reserved words are declared under
distinct names. -/
theorem nodup_names_declared? {nodes : List Declaration} (hnames : (nodes.map (·.name)).Nodup)
    (hunmarked : ∀ node ∈ nodes, isMapped s node = true → ∀ rest, node.name ≠ "@" ++ rest) :
    ((nodes.filterMap (declared? s)).map (·.name)).Nodup := by
  induction nodes with
  | nil => exact List.nodup_nil
  | cons node rest ih =>
    rw [List.map_cons, List.nodup_cons] at hnames
    rw [List.forall_mem_cons] at hunmarked
    have hrest := ih hnames.2 hunmarked.2
    cases hdeclared : declared? s node with
    | none =>
      rw [List.filterMap_cons_none hdeclared]
      exact hrest
    | some d =>
      rw [List.filterMap_cons_some hdeclared, List.map_cons, List.nodup_cons]
      refine ⟨fun hmem => ?_, hrest⟩
      obtain ⟨other, hother, hname⟩ := List.mem_map.mp hmem
      obtain ⟨node', hnode', hdeclared'⟩ := List.mem_filterMap.mp hother
      rw [(standsFor_of_declared? hdeclared).name, (standsFor_of_declared? hdeclared').name] at hname
      have hsame := escape_injective (hunmarked.2 node' hnode' (isMapped_of_declared? hdeclared'))
        (hunmarked.1 (isMapped_of_declared? hdeclared)) hname
      exact hnames.1 (hsame ▸ List.mem_map_of_mem hnode')

/-- No two declarations of a binding have one name, if helpers keep apart. -/
theorem nodup_names_run (hrun : (run s).bindings = .ok b) (hnames : s.tree.names.Nodup)
    (hunmarked : ∀ node ∈ s.tree.nodes, isMapped s node = true → ∀ rest, node.name ≠ "@" ++ rest)
    (apart : HelpersApart s) : (b.declarations.map (·.name)).Nodup := by
  have hsplit : (b.declarations.filter (·.kind = .fixedBuffer) ++ b.ofNodes).Perm b.declarations := by
    have hperm := List.filter_append_perm (fun d : Binding.Declaration => decide (d.kind = .fixedBuffer))
      b.declarations
    simpa [Binding.Bindings.ofNodes] using hperm
  rw [← (hsplit.map (·.name)).nodup_iff, List.map_append, List.nodup_append]
  -- helpers among themselves, what stands for nodes, and one of each
  refine ⟨nodup_helpersIn_run hrun, ?_, ?_⟩
  · rw [ofNodes_run hrun]
    exact nodup_names_declared? hnames hunmarked
  · intro name hhelper other hnode hsame
    obtain ⟨d, hd, rfl⟩ := List.mem_map.mp hhelper
    obtain ⟨d', hd', rfl⟩ := List.mem_map.mp hnode
    obtain ⟨node, hmem, hdeclared⟩ := (mem_ofNodes_iff hrun).mp hd'
    obtain ⟨hdeclaration, hkind⟩ := List.mem_filter.mp hd
    rw [decide_eq_true_eq] at hkind
    rcases isHelper_or_declared hrun hdeclaration with ⟨a, ha, hname, -⟩ | ⟨_, _, hstands⟩
    · exact apart.name_ne hmem hdeclared ha (hname.trans (congrArg some hsame))
    · exact (standsFor_of_declared? hstands).kind_ne hkind

/-- The declaration is a helper for an array of that use. -/
def IsHelperFor (d : Binding.Declaration) (a : ArrayUse) : Prop :=
  ∃ element, d.body = .fixedBuffer element a.count a.size ∧
    element.name = a.element.name ∧ element.count = a.element.count

/-- By the name of an array's helper nothing is declared but such a helper. -/
theorem isHelperFor_of_name (hrun : (run s).bindings = .ok b) (apart : HelpersApart s) {a : ArrayUse}
    (ha : a ∈ arrayUses s) {d : Binding.Declaration} (hd : d ∈ b.declarations)
    (hname : a.name? = some d.name) : IsHelperFor d a := by
  rcases isHelper_or_declared hrun hd with ⟨a', ha', hname', hbody⟩ | ⟨node, hnode, hdeclared⟩
  · obtain ⟨helement, hinner, hcount, hsize⟩ := apart.same ha ha' hname hname'
    exact ⟨a'.element, by rw [hbody, hcount, hsize], helement.symm, hinner.symm⟩
  · exact absurd hname (apart.name_ne hnode hdeclared ha)

/-- An array that is no buffer is used by the name of its helper. -/
theorem arrayUse_of_typeUse {name : String} {u : TypeUse} (hnode : s.tree.node? name = some node)
    (hbody : node.body = .array element count size) (hu : (typeUse s name .field).result = .ok u)
    (hhelper : u.count = none) :
    ∃ inner, (elementUse (typeUse s) s element).result = .ok inner ∧
      ⟨inner, count, size⟩ ∈ arrayUses s ∧ (ArrayUse.mk inner count size).name? = some u.name := by
  obtain ⟨inner, hinner, harray⟩ := typeUse_array_eq_ok hnode hbody hu
  dsimp only at harray
  split at harray
  · subst harray
    cases hhelper
  · rename_i hbuffer
    obtain ⟨text, htext, rfl⟩ := harray
    have huse := arrayUse?_eq_some hbody hinner (Bool.eq_false_iff.mpr hbuffer)
    exact ⟨inner, hinner, List.mem_filterMap.mpr ⟨node, node?_mem hnode, huse⟩,
      name?_of_arrayHelper htext⟩

end

/-- Names of helpers identify arrays where they can be told apart. Two helpers have the same name exactly if
their identifier parts and counts are the same, or if number words belong to the element of one and to the
count of the other. Every helper of a binding is for an array of the tree. If the names keep the arrays
apart, no two declarations of the binding have one name; whatever bears the name that an array is used by
is the helper for that array; and it is there for every declaration that asked for it. -/
theorem helpers_identify_arrays (s : Setting) :
    (∀ label count name, fixedBufferName? label count = some name →
      ∀ label' count', fixedBufferName? label' count' = some name ↔
        (identifierPart label = identifierPart label' ∧ count = count') ∨
        FollowedByWords (identifierPart label) count (identifierPart label') count' ∨
        FollowedByWords (identifierPart label') count' (identifierPart label) count) ∧
    ∀ b, (run s).bindings = .ok b →
      (∀ d ∈ b.declarations, d.kind = .fixedBuffer → IsHelper s d) ∧
      (s.tree.names.Nodup →
        (∀ node ∈ s.tree.nodes, isMapped s node = true → ∀ rest, node.name ≠ "@" ++ rest) →
        HelpersApart s →
        (b.declarations.map (·.name)).Nodup ∧
        ∀ name array element count size, s.tree.node? name = some array →
          array.body = .array element count size →
          ∀ u, (typeUse s name .field).result = .ok u → u.count = none →
            ∃ inner, (elementUse (typeUse s) s element).result = .ok inner ∧
              (∀ d ∈ b.declarations, d.name = u.name → IsHelperFor d ⟨inner, count, size⟩) ∧
              ∀ node ∈ s.tree.nodes, Survives s node →
                u.name ∈ helperNames (declaration? s node).events →
                ∃ d ∈ b.declarations, d.name = u.name ∧ IsHelperFor d ⟨inner, count, size⟩) := by
  refine ⟨fun label count name h label' count' => fixedBufferName?_eq_iff h, fun b hrun => ⟨?_, ?_⟩⟩
  · intro d hd hkind
    rcases isHelper_or_declared hrun hd with hhelper | ⟨node, -, hdeclared⟩
    · exact hhelper
    · exact absurd hkind (standsFor_of_declared? hdeclared).kind_ne
  · intro hnames hunmarked apart
    refine ⟨nodup_names_run hrun hnames hunmarked apart, ?_⟩
    intro name array element count size hnode hbody u hu hhelper
    obtain ⟨inner, hinner, hmem, hname⟩ := arrayUse_of_typeUse hnode hbody hu hhelper
    have hholds (d : Binding.Declaration) (hd : d ∈ b.declarations) (hsame : d.name = u.name) :
        IsHelperFor d ⟨inner, count, size⟩ := isHelperFor_of_name hrun apart hmem hd (hsame ▸ hname)
    refine ⟨inner, hinner, hholds, fun node hasking hsurvives hasked => ?_⟩
    obtain ⟨d, hd, -, hsame⟩ := mem_helpersIn.mp (helperNames_run hrun hasking hsurvives hasked)
    exact ⟨d, hd, hsame, hholds d hd hsame⟩

/-- A tree with arrays of records, of pointers and of arrays. -/
def grids : Setting where
  tree := ⟨"grids.h", 64, [
    ⟨"int", .primitive 4 4, none⟩,
    ⟨"int*", .pointer "int" 8, none⟩,
    ⟨"int*[2]", .array "int*" 2 16, none⟩,
    ⟨"int[3]", .array "int" 3 12, none⟩,
    ⟨"int[3][2]", .array "int[3]" 2 24, none⟩,
    ⟨"spot", .record false [⟨"at", "int[3]", 0, 12⟩] 12 4, none⟩,
    ⟨"spot[3]", .array "spot" 3 36, none⟩,
    ⟨"grid", .record false [⟨"cells", "int[3][2]", 0, 24⟩, ⟨"ends", "int*[2]", 24, 16⟩,
      ⟨"corners", "spot[3]", 40, 36⟩] 80 8, none⟩]⟩
  policy := ⟨"Grids", [], [], none⟩

theorem helpersApart_grids : HelpersApart grids where
  uses := by decide +kernel
  words := by
    have hprefix : ∀ a ∈ arrayUses grids, ∀ a' ∈ arrayUses grids,
        ¬(identifierPart a.label ++ "_").toList <+: (identifierPart a'.label).toList := by
      decide +kernel
    exact fun a ha a' ha' h => hprefix a ha a' ha' h.begins
  reserved := by decide +kernel

theorem helpers_identify_arrays_grids :
    grids.tree.names.Nodup ∧ HelpersApart grids ∧
    fixedBufferName? "spot" 22 = some "FixedBuffer_Spot_twenty_two" ∧
    fixedBufferName? "spot_twenty" 2 = some "FixedBuffer_Spot_twenty_two" ∧
    ∃ b, (run grids).bindings = .ok b ∧
      b.declarations.map (·.name) = ["spot", "FixedBuffer_Int3_two", "FixedBuffer_IntPtr_two",
        "FixedBuffer_Spot_three", "grid"] ∧
      (b.declarations.map (·.name)).Nodup ∧
      ∃ inner, (elementUse (typeUse grids) grids "int[3]").result = .ok inner ∧
        ∃ d ∈ b.declarations, d.name = "FixedBuffer_Int3_two" ∧ IsHelperFor d ⟨inner, 2, 24⟩ := by
  have hnames : grids.tree.names.Nodup := by decide +kernel
  have hunmarked : ∀ node ∈ grids.tree.nodes, ¬"@".toList <+: node.name.toList := by decide +kernel
  have hu : (typeUse grids "int[3][2]" .field).result =
      .ok ⟨"FixedBuffer_Int3_two", 24, 4, none⟩ := by decide +kernel
  have hdeclared : (run grids).bindings.toOption.map (·.declarations.map (·.name)) =
      some ["spot", "FixedBuffer_Int3_two", "FixedBuffer_IntPtr_two", "FixedBuffer_Spot_three",
        "grid"] := by decide +kernel
  have hspot : fixedBufferName? "spot" 22 = some "FixedBuffer_Spot_twenty_two" := by decide +kernel
  have hwords : FollowedByWords (identifierPart "spot") 22 (identifierPart "spot_twenty") 2 :=
    ⟨["twenty"], ["two"], by decide +kernel, by decide +kernel, by decide, by decide +kernel⟩
  obtain ⟨hshared, hbinding⟩ := helpers_identify_arrays grids
  refine ⟨hnames, helpersApart_grids, hspot,
    (hshared _ _ _ hspot _ _).mpr (.inr (.inl hwords)), ?_⟩
  obtain ⟨b, hrun, hnamed⟩ := eq_ok_of_toOption_map hdeclared
  obtain ⟨hnodup, harrays⟩ := (hbinding b hrun).2 hnames
    (fun node hnode _ rest hname => hunmarked node hnode (prefix_of_eq_append hname)) helpersApart_grids
  obtain ⟨inner, hinner, -, hasked⟩ := harrays "int[3][2]" _ "int[3]" 2 24 rfl rfl _ hu rfl
  obtain ⟨grid, hgrid, hmapped, hmade, hevents⟩ : ∃ grid ∈ grids.tree.nodes,
      isMapped grids grid = true ∧
        (declaration? grids grid).result.toOption.map (·.isSome) = some true ∧
        "FixedBuffer_Int3_two" ∈ helperNames (declaration? grids grid).events := by decide +kernel
  obtain ⟨declaration, hresult, -⟩ := eq_ok_of_toOption_map hmade
  exact ⟨b, hrun, hnamed, hnodup, inner, hinner,
    hasked grid hgrid ⟨hmapped, declaration, hresult⟩ hevents⟩

end CInterop.Mapping
