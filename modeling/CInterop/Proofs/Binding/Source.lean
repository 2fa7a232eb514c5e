import Mathlib.Data.List.Perm.Basic
import CInterop.Binding.Source

/-!
# What the source text depends on

Of several declarations with one name the first survives. The survivors are written in the order of their
groups, and in their own order inside each group. So the text stays the same if the others are taken away,
and if survivors of different groups change places. The library is loaded only for variables: the block that
does it is there exactly if one of them survives.
-/

namespace CInterop.Binding.Source

variable {d : Declaration} {ds ds' : List Declaration} {before : List String} {g : Group}

/-! ## First occurrences -/

/-- The declarations without those whose name has occurred before. -/
def survivors (ds : List Declaration) : List Declaration :=
  ds.eraseDupsBy fun d d' => d.name == d'.name

/-- Names that have occurred before the list are left out of it first. -/
theorem firstOf_eq (before : List String) (ds : List Declaration) :
    firstOf before ds = survivors (ds.filter fun d => !before.contains d.name) := by
  induction ds generalizing before with
  | nil => rfl
  | cons d rest ih =>
    unfold firstOf
    by_cases hbefore : before.contains d.name = true
    · rw [if_pos hbefore, ih, List.filter_cons_of_neg (by simpa using hbefore)]
    · rw [if_neg hbefore, ih, List.filter_cons_of_pos (by simpa using hbefore)]
      unfold survivors
      rw [List.eraseDupsBy_cons, List.filter_filter]
      congr 2
      refine List.filter_congr fun other _ => ?_
      rw [List.contains_cons, Bool.not_or, BEq.comm]
      cases d.name == other.name <;> simp

theorem firstOf_nil (ds : List Declaration) : firstOf [] ds = survivors ds := by
  rw [firstOf_eq]
  congr 1
  exact List.filter_eq_self.mpr fun _ _ => rfl

/-- Every name survives once, and none that has occurred before. -/
theorem nodup_firstOf (before : List String) (ds : List Declaration) :
    ((firstOf before ds).map (·.name)).Nodup ∧ ∀ d ∈ firstOf before ds, d.name ∉ before := by
  induction ds generalizing before with
  | nil => exact ⟨List.nodup_nil, fun _ h => absurd h List.not_mem_nil⟩
  | cons d rest ih =>
    unfold firstOf
    by_cases hbefore : before.contains d.name = true
    · rw [if_pos hbefore]
      exact ih before
    · rw [if_neg hbefore]
      obtain ⟨hdistinct, hnew⟩ := ih (d.name :: before)
      rw [List.map_cons, List.nodup_cons, List.forall_mem_cons]
      refine ⟨⟨?_, hdistinct⟩, by simpa using hbefore, fun other hother => ?_⟩
      · intro hmem
        obtain ⟨other, hother, hname⟩ := List.mem_map.mp hmem
        exact hnew other hother (hname ▸ List.mem_cons_self)
      · exact fun hmem => hnew other hother (List.mem_cons_of_mem _ hmem)

/-- All declarations survive whose names are different and have not occurred before. -/
theorem firstOf_eq_self (hdistinct : (ds.map (·.name)).Nodup) (hnew : ∀ d ∈ ds, d.name ∉ before) :
    firstOf before ds = ds := by
  induction ds generalizing before with
  | nil => rfl
  | cons d rest ih =>
    rw [List.map_cons, List.nodup_cons] at hdistinct
    rw [List.forall_mem_cons] at hnew
    unfold firstOf
    rw [if_neg (by simpa using hnew.1), ih hdistinct.2 fun other hother hmem => ?_]
    rcases List.mem_cons.mp hmem with hsame | hmem
    · exact hdistinct.1 (hsame ▸ List.mem_map_of_mem hother)
    · exact hnew.2 other hother hmem

theorem survivors_eq_self (hdistinct : (ds.map (·.name)).Nodup) : survivors ds = ds := by
  rw [← firstOf_nil]
  exact firstOf_eq_self hdistinct fun _ _ => List.not_mem_nil

theorem survivors_survivors (ds : List Declaration) : survivors (survivors ds) = survivors ds := by
  refine survivors_eq_self ?_
  rw [← firstOf_nil]
  exact (nodup_firstOf [] ds).1

/-! ## Groups -/

/-- The place of a group among the others. -/
def Group.rank : Group → Nat
  | .functions => 0
  | .globals => 1
  | .constants => 2
  | .types => 3

/-- The group of a declaration. -/
def groupOf (d : Declaration) : Group := Group.ofKind d.kind

/-- One list has the declarations of the other in the order of their groups, and inside each group in the
same order. -/
structure IsGrouped (written ds : List Declaration) : Prop where
  perm : written.Perm ds
  sorted : written.Pairwise fun d d' => (groupOf d).rank ≤ (groupOf d').rank
  kept : ∀ g, inGroup g written = inGroup g ds

theorem mem_inGroup : d ∈ inGroup g ds ↔ d ∈ ds ∧ groupOf d = g := by
  rw [inGroup, List.mem_filter, decide_eq_true_iff]
  rfl

/-- What is in one group is in no other. -/
theorem inGroup_inGroup (g g' : Group) (ds : List Declaration) :
    inGroup g (inGroup g' ds) = if g = g' then inGroup g ds else [] := by
  split
  · rename_i heq
    subst heq
    exact List.filter_eq_self.mpr fun d hd => (List.mem_filter.mp hd).2
  · rename_i hne
    refine List.eq_nil_iff_forall_not_mem.mpr fun d hd => hne ?_
    obtain ⟨hd, hgroup⟩ := mem_inGroup.mp hd
    exact hgroup.symm.trans (mem_inGroup.mp hd).2

/-- Lists with the same groups have the same declarations, as many times. -/
theorem perm_of_inGroup (h : ∀ g, inGroup g ds = inGroup g ds') : ds.Perm ds' := by
  refine List.perm_iff_count.mpr fun d => ?_
  have hcount (ds : List Declaration) : (inGroup (groupOf d) ds).count d = ds.count d := by
    unfold inGroup
    exact List.count_filter (decide_eq_true rfl)
  rw [← hcount ds, h, hcount]

theorem ordered_eq (ds : List Declaration) :
    ordered ds = [Group.functions, .globals, .constants, .types].flatMap (inGroup · ds) := by
  simp [ordered]

theorem isGrouped_ordered (ds : List Declaration) : IsGrouped (ordered ds) ds := by
  have hkept (g : Group) : inGroup g (ordered ds) = inGroup g ds := by
    have happend (as bs : List Declaration) : inGroup g (as ++ bs) = inGroup g as ++ inGroup g bs :=
      List.filter_append ..
    rw [ordered, happend, happend, happend, inGroup_inGroup, inGroup_inGroup, inGroup_inGroup,
      inGroup_inGroup]
    cases g <;> simp
  refine ⟨perm_of_inGroup hkept, ?_, hkept⟩
  rw [ordered_eq, List.pairwise_flatMap]
  constructor
  · intro g _
    -- all declarations of one group are at the same place
    refine List.pairwise_of_forall_mem_list fun d hd d' hd' => Nat.le_of_eq ?_
    rw [(mem_inGroup.mp hd).2, (mem_inGroup.mp hd').2]
  · have hranks : [Group.functions, .globals, .constants, .types].Pairwise (·.rank ≤ ·.rank) := by
      decide
    refine hranks.imp fun {g g'} hle d hd d' hd' => ?_
    rw [(mem_inGroup.mp hd).2, (mem_inGroup.mp hd').2]
    exact hle

/-! ## Groups by kind -/

/-- The kinds whose declarations have a group of their own. -/
def ownGroups : List Kind := [.function, .global, .constant]

/-- Each of the other groups has one kind, the types have the rest. -/
theorem ofKind_eq_iff (kind : Kind) : (Group.ofKind kind = .functions ↔ kind = .function) ∧
    (Group.ofKind kind = .globals ↔ kind = .global) ∧
    (Group.ofKind kind = .constants ↔ kind = .constant) ∧
    (Group.ofKind kind = .types ↔ kind ∉ ownGroups) := by
  cases kind <;> decide

theorem mem_inGroup_globals : d ∈ inGroup .globals ds ↔ d ∈ ds ∧ d.kind = .global := by
  rw [mem_inGroup]
  exact and_congr_right' (ofKind_eq_iff d.kind).2.1

theorem isEmpty_inGroup_globals (ds : List Declaration) :
    (inGroup .globals ds).isEmpty = true ↔ ¬∃ d ∈ ds, d.kind = .global := by
  rw [List.isEmpty_iff, List.eq_nil_iff_forall_not_mem, not_exists]
  exact forall_congr' fun d => not_congr mem_inGroup_globals

/-- Two lists that agree on each kind with a group of its own and on everything else have the same groups. -/
theorem inGroup_congr
    (hown : ∀ kind ∈ ownGroups, (ds.filter fun d => d.kind = kind) = ds'.filter fun d => d.kind = kind)
    (hrest : (ds.filter fun d => d.kind ∉ ownGroups) = ds'.filter fun d => d.kind ∉ ownGroups)
    (g : Group) : inGroup g ds = inGroup g ds' := by
  cases g with
  | functions =>
    simp only [inGroup, (ofKind_eq_iff _).1]
    exact hown .function (by decide)
  | globals =>
    simp only [inGroup, (ofKind_eq_iff _).2.1]
    exact hown .global (by decide)
  | constants =>
    simp only [inGroup, (ofKind_eq_iff _).2.2.1]
    exact hown .constant (by decide)
  | types =>
    simp only [inGroup, (ofKind_eq_iff _).2.2.2]
    exact hrest

/-! ## The text -/

/-- The block with the name of the library. -/
def libraryName (options : SourceOptions) : Lines :=
  [s!"private const string LibraryName = \"{options.libraryName}\";"]

/-- The text of one class with the given blocks. -/
def classText (options : SourceOptions) (className : String) (body : List Lines) : String :=
  String.intercalate "\n" (opening options ++ [s!"public static unsafe partial class {className}", "\x7b"] ++
    separated (body.map (·.map indentText)) ++ ["\x7d"]) ++ "\n"

/-- The text is made of the library's name, the block that loads it and the survivors by their groups. -/
theorem source_eq_classText (options : SourceOptions) (b : Bindings) :
    b.source options = classText options b.className ([libraryName options] ++
      (if ∃ d ∈ survivors b.declarations, d.kind = .global then [libraryHandle b.className] else []) ++
      (ordered (survivors b.declarations)).map declaration) := by
  show String.intercalate "\n" (lines options b) ++ "\n" = _
  unfold lines blocks
  rw [firstOf_nil]
  by_cases hglobal : ∃ d ∈ survivors b.declarations, d.kind = .global
  · have hloaded := mt (isEmpty_inGroup_globals _).mp (not_not_intro hglobal)
    simp only [if_pos hglobal, if_neg hloaded]
    rfl
  · simp only [if_neg hglobal, if_pos ((isEmpty_inGroup_globals _).mpr hglobal)]
    rfl

/-- A binding is written from the survivors alone, group by group. -/
theorem source_by_groups (options : SourceOptions) (b : Bindings) :
    { b with declarations := survivors b.declarations }.source options = b.source options ∧
    (∀ c : Bindings, c.className = b.className → (b.declarations.map (·.name)).Nodup →
      (c.declarations.map (·.name)).Nodup → (∀ kind ∈ ownGroups, c.ofKind kind = b.ofKind kind) →
      ((c.declarations.filter fun d => d.kind ∉ ownGroups) =
        b.declarations.filter fun d => d.kind ∉ ownGroups) →
      c.source options = b.source options) ∧
    ∃ written, IsGrouped written (survivors b.declarations) ∧
      b.source options = classText options b.className ([libraryName options] ++
        (if ∃ d ∈ survivors b.declarations, d.kind = .global then [libraryHandle b.className] else []) ++
        written.map declaration) := by
  refine ⟨?_, ?_, ordered (survivors b.declarations), isGrouped_ordered _, source_eq_classText options b⟩
  · rw [source_eq_classText, source_eq_classText, survivors_survivors]
  · intro c hclass hb hc hown hrest
    have hgroups := inGroup_congr hown hrest
    have hordered : ordered c.declarations = ordered b.declarations := by
      unfold ordered
      rw [hgroups, hgroups, hgroups, hgroups]
    have hglobals : (∃ d ∈ c.declarations, d.kind = .global) ↔
        ∃ d ∈ b.declarations, d.kind = .global := by
      have hperm := perm_of_inGroup hgroups
      exact exists_congr fun d => and_congr_left' hperm.mem_iff
    rw [source_eq_classText, source_eq_classText, survivors_eq_self hb, survivors_eq_self hc, hclass,
      hordered, ite_congr (propext hglobals) (fun _ => rfl) fun _ => rfl]

/-- A variable, a function, an incomplete type and a constant of one class. -/
def interleaved : Bindings where
  className := "Native"
  bitness := 64
  declarations := [
    { name := "counter", body := .global "counter" { name := "int", size := 4 } },
    { name := "open", body := .function { name := "Handle", size := 0 } [] "Cdecl" },
    { name := "Handle", body := .incomplete },
    { name := "LIMIT", body := .constant "int" "8" },
    { name := "close", body := .function { name := "void", size := 0 } [] "Cdecl" }]

/-- The same declarations in an order that mixes the groups in another way. -/
def regrouped : Bindings :=
  { interleaved with
    declarations := [
      { name := "LIMIT", body := .constant "int" "8" },
      { name := "open", body := .function { name := "Handle", size := 0 } [] "Cdecl" },
      { name := "close", body := .function { name := "void", size := 0 } [] "Cdecl" },
      { name := "counter", body := .global "counter" { name := "int", size := 4 } },
      { name := "Handle", body := .incomplete }] }

theorem source_by_groups_regrouped : regrouped.declarations ≠ interleaved.declarations ∧
    (∀ kind ∈ ownGroups, regrouped.ofKind kind = interleaved.ofKind kind) ∧
    regrouped.source { libraryName := "native" } = interleaved.source { libraryName := "native" } :=
  have hown : ∀ kind ∈ ownGroups, regrouped.ofKind kind = interleaved.ofKind kind := by decide
  ⟨by decide, hown, (source_by_groups { libraryName := "native" } interleaved).2.1 regrouped rfl
    (by decide) (by decide) hown (by decide)⟩

end CInterop.Binding.Source
