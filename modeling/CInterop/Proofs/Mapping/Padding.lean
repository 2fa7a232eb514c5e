import Mathlib.Data.List.Forall2
import Mathlib.Data.List.Pairwise
import CInterop.Proofs.Mapping.Reports

/-!
# Padding

A record becomes a struct of its fields with a size, and the fields without one are reported. Behind
each field come as many bytes as there are up to the next larger offset, so that in a record whose
fields do not overlap every byte from the first field on belongs to exactly one of them.
-/

namespace CInterop

/-- Whether the diagnostic reports a field without a size. -/
def Diagnostic.isSizeless (d : Diagnostic) : Bool :=
  match d.cause with
  | .unmappable _ reason => reason = Mapping.sizeless
  | _ => false

namespace Mapping

open Header
open Binding (escape)

/-! ## What is mapped and what is reported -/

/-- The reports on the fields without a size. -/
def sizelessOf (node : Declaration) (fields : List (Field String Int)) : List Diagnostic :=
  (fields.filter (·.size = 0)).map fun f =>
    ⟨.unmappable (node.name ++ "." ++ f.name) sizeless, some node.place⟩

/-- The reports on the fields of a node without a size. -/
def sizelessReports (node : Declaration) : List Diagnostic :=
  match node.body with
  | .record _ fields _ _ => sizelessOf node fields
  | _ => []

/-- The field of the struct bears the name, the type and the offset of the field of the record. -/
structure Presents (s : Setting) (f : Field String Int) (m : Binding.Field) : Prop where
  name : m.name = escape f.name
  type : (typeUse s f.type .field).result = .ok m.type
  offset : m.offset = f.offset

/-- Besides, it has the given padding. -/
structure Padded (s : Setting) (padding : Field String Int → Int) (f : Field String Int)
    (m : Binding.Field) : Prop extends Presents s f m where
  padding : m.padding = padding f

/-- The bytes that each field takes with its padding: the first, and the one behind the last. -/
def stretches (fields : List (Field String Int)) (mapped : List Binding.Field) : List (Int × Int) :=
  List.zipWith (fun f m => (f.offset, f.offset + f.size + m.padding)) fields mapped

/-- Each number from `first` to before `last` is in exactly one of the intervals, and no other is in
any. -/
def Tiles (intervals : List (Int × Int)) (first last : Int) : Prop :=
  ∀ x, intervals.countP (fun i => i.1 ≤ x && x < i.2) = if first ≤ x ∧ x < last then 1 else 0

/-- Two fields have no byte in common. -/
def Apart (f g : Field String Int) : Prop :=
  f.offset + f.size ≤ g.offset ∨ g.offset + g.size ≤ f.offset

instance : Std.Symm Apart := ⟨fun _ _ h => h.symm⟩

instance : DecidableRel Apart := fun f g =>
  inferInstanceAs (Decidable (f.offset + f.size ≤ g.offset ∨ g.offset + g.size ≤ f.offset))

/-- The fields of the struct account for the layout of the record. -/
structure LaidOut (s : Setting) (isUnion : Bool) (fields : List (Field String Int)) (size : Int)
    (mapped : List Binding.Field) : Prop where
  presents : List.Forall₂ (fun f m => Presents s f m ∧ 0 ≤ m.padding) (fields.filter (·.size ≠ 0)) mapped
  /-- In a struct, no padding reaches into a field that starts behind the end of its own. -/
  stays : isUnion = false → ∀ p ∈ (fields.filter (·.size ≠ 0)).zip mapped, ∀ g ∈ fields,
    p.1.offset < g.offset → p.1.offset + p.1.size ≤ g.offset →
      p.1.offset + p.1.size + p.2.padding ≤ g.offset
  /-- A struct of fields that do not overlap is filled from the first of them to its end. -/
  tiles : isUnion = false → fields ≠ [] → (∀ f ∈ fields, 0 < f.size) → fields.Pairwise Apart →
    (∀ f ∈ fields, f.offset + f.size ≤ size) →
    ∃ first, (fields.map (·.offset)).min? = some first ∧
      Tiles (stretches (fields.filter (·.size ≠ 0)) mapped) first size

/-! ## The fields of a record -/

section

variable {s : Setting} {node : Declaration} {padding : Field String Int → Int} {f : Field String Int}
  {fields : List (Field String Int)}

theorem sizelessOf_cons_of_pos (h : f.size = 0) :
    sizelessOf node (f :: fields) =
      ⟨.unmappable (node.name ++ "." ++ f.name) sizeless, some node.place⟩ :: sizelessOf node fields := by
  rw [sizelessOf, List.filter_cons_of_pos (by simpa using h)]
  rfl

theorem sizelessOf_cons_of_neg (h : f.size ≠ 0) :
    sizelessOf node (f :: fields) = sizelessOf node fields := by
  rw [sizelessOf, List.filter_cons_of_neg (by simpa using h)]
  rfl

/-- The fields without a size are reported, up to a field whose type has no use. -/
theorem isPrefix_reports_fieldsOf (fields : List (Field String Int)) :
    (fieldsOf s node padding fields).reports <+: sizelessOf node fields := by
  induction fields with
  | nil => exact List.prefix_rfl
  | cons f rest ih =>
    unfold fieldsOf
    split
    · rename_i hsize
      rw [sizelessOf_cons_of_pos hsize, Outcome.reports_bind_of_ok rfl]
      exact List.cons_prefix_cons.mpr ⟨rfl, ih⟩
    · rename_i hsize
      rw [sizelessOf_cons_of_neg hsize]
      have htype := reports_typeUse s f.type .field
      cases huse : (typeUse s f.type .field).result with
      | error reason =>
        rw [Outcome.reports_bind_of_error huse, htype]
        exact List.nil_prefix
      | ok type =>
        rw [Outcome.reports_bind_of_ok huse, htype, List.nil_append]
        cases hothers : (fieldsOf s node padding rest).result with
        | error reason =>
          rw [Outcome.reports_bind_of_error hothers]
          exact ih
        | ok others =>
          rw [Outcome.reports_bind_of_ok hothers]
          exact (List.append_nil _).symm ▸ ih

/-- If all have one, the fields with a size are mapped in order and all others reported. -/
theorem fieldsOf_eq_ok {mapped : List Binding.Field} (fields : List (Field String Int))
    (h : (fieldsOf s node padding fields).result = .ok mapped) :
    (fieldsOf s node padding fields).reports = sizelessOf node fields ∧
      List.Forall₂ (Padded s padding) (fields.filter (·.size ≠ 0)) mapped := by
  induction fields generalizing mapped with
  | nil =>
    cases h
    exact ⟨rfl, .nil⟩
  | cons f rest ih =>
    unfold fieldsOf at h ⊢
    split at h
    · rename_i hsize
      rw [if_pos hsize, sizelessOf_cons_of_pos hsize, List.filter_cons_of_neg (by simpa using hsize),
        Outcome.reports_bind_of_ok rfl]
      exact ⟨congrArg _ (ih h).1, (ih h).2⟩
    · rename_i hsize
      obtain ⟨type, htype, h, -⟩ := Outcome.bind_eq_ok h
      obtain ⟨others, hothers, h, -⟩ := Outcome.bind_eq_ok h
      cases h
      rw [if_neg hsize, sizelessOf_cons_of_neg hsize, List.filter_cons_of_pos (by simpa using hsize),
        Outcome.reports_bind_of_ok htype, Outcome.reports_bind_of_ok hothers, reports_typeUse]
      exact ⟨(List.append_nil _).trans (ih hothers).1, .cons ⟨⟨rfl, htype, rfl⟩, rfl⟩ (ih hothers).2⟩

theorem stretches_of_padded {kept : List (Field String Int)} {mapped : List Binding.Field}
    (h : List.Forall₂ (Padded s padding) kept mapped) :
    stretches kept mapped = kept.map fun f => (f.offset, f.offset + f.size + padding f) := by
  induction h with
  | nil => rfl
  | cons hfirst _ ih =>
    rw [List.map_cons, ← ih, ← hfirst.padding]
    rfl

end

/-! ## What follows a field -/

/-- The least larger offset, or else the end of the record. -/
def following (offsets : List Int) (size offset : Int) : Int :=
  ((offsets.filter (offset < ·)).min?).getD size

section

variable {offsets : List Int} {size offset other : Int}

theorem following_le (h : other ∈ offsets) (hlt : offset < other) :
    following offsets size offset ≤ other := by
  have hmem : other ∈ offsets.filter (offset < ·) := List.mem_filter.mpr ⟨h, decide_eq_true hlt⟩
  unfold following
  cases hleast : (offsets.filter (offset < ·)).min? with
  | none =>
    rw [List.min?_eq_none_iff.mp hleast] at hmem
    cases hmem
  | some least => exact (List.min?_eq_some_iff.mp hleast).2 other hmem

theorem following_cases (offsets : List Int) (size offset : Int) :
    following offsets size offset = size ∨
      following offsets size offset ∈ offsets ∧ offset < following offsets size offset := by
  unfold following
  cases hleast : (offsets.filter (offset < ·)).min? with
  | none => exact .inl rfl
  | some least =>
    have hmem := List.mem_filter.mp (List.min?_eq_some_iff.mp hleast).1
    exact .inr ⟨hmem.1, of_decide_eq_true hmem.2⟩

/-- From each offset on, the last one that is not beyond it is followed by something beyond it. -/
theorem exists_following {x first : Int} (hfirst : offsets.min? = some first) (hfrom : first ≤ x)
    (hto : x < size) : ∃ offset ∈ offsets, offset ≤ x ∧ x < following offsets size offset := by
  have hmem : first ∈ offsets.filter (· ≤ x) :=
    List.mem_filter.mpr ⟨(List.min?_eq_some_iff.mp hfirst).1, decide_eq_true hfrom⟩
  obtain ⟨last, hlast⟩ := Option.isSome_iff_exists.mp (List.isSome_max?_of_mem hmem)
  obtain ⟨hlast, hgreatest⟩ := List.max?_eq_some_iff.mp hlast
  obtain ⟨hlast, hle⟩ := List.mem_filter.mp hlast
  refine ⟨last, hlast, of_decide_eq_true hle, ?_⟩
  rcases following_cases offsets size last with hend | ⟨hnext, hlt⟩
  · rwa [hend]
  · by_contra hbefore
    have := hgreatest _ (List.mem_filter.mpr ⟨hnext, decide_eq_true (Int.not_lt.mp hbefore)⟩)
    omega

end

/-! ## Tiling -/

/-- Of a list in which no two meet the test, one that has one that meets it has exactly one. -/
theorem countP_eq_one {α : Type} {test : α → Bool} {l : List α} (hexists : ∃ a ∈ l, test a = true)
    (hone : l.Pairwise fun a b => ¬ (test a = true ∧ test b = true)) : l.countP test = 1 := by
  induction hone with
  | nil => exact absurd hexists (by simp)
  | @cons a rest hfirst _ ih =>
    by_cases ha : test a = true
    · have hrest : rest.countP test = 0 :=
        List.countP_eq_zero.mpr fun b hb htest => hfirst b hb ⟨ha, htest⟩
      rw [List.countP_cons_of_pos ha, hrest]
    · rw [List.countP_cons_of_neg ha]
      obtain ⟨b, hb, htest⟩ := hexists
      rcases List.mem_cons.mp hb with rfl | hb
      · exact absurd htest ha
      · exact ih ⟨b, hb, htest⟩

section

variable {fields : List (Field String Int)} {size : Int}

/-- Fields with a size that do not overlap, and end within the record. -/
structure Separate (fields : List (Field String Int)) (size : Int) : Prop where
  pos : ∀ f ∈ fields, 0 < f.size
  apart : fields.Pairwise Apart
  within : ∀ f ∈ fields, f.offset + f.size ≤ size

/-- Nothing follows a field before its end, and what follows is within the record. -/
theorem Separate.following_bounds (h : Separate fields size) {f : Field String Int} (hf : f ∈ fields) :
    f.offset + f.size ≤ following (fields.map (·.offset)) size f.offset ∧
      following (fields.map (·.offset)) size f.offset ≤ size := by
  rcases following_cases (fields.map (·.offset)) size f.offset with hend | ⟨hnext, hlt⟩
  · rw [hend]
    exact ⟨h.within f hf, Int.le_refl _⟩
  · obtain ⟨g, hg, hoffset⟩ := List.mem_map.mp hnext
    rw [← hoffset] at hlt ⊢
    have hne : f ≠ g := fun heq => by
      subst heq
      exact Int.lt_irrefl _ hlt
    have hpos := h.pos g hg
    have hwithin := h.within g hg
    rcases h.apart.forall hf hg hne with hbefore | hbehind
    · exact ⟨hbefore, by omega⟩
    · omega

/-- Each field with its padding reaches up to what follows. -/
theorem Separate.tiles (h : Separate fields size) {first : Int}
    (hfirst : (fields.map (·.offset)).min? = some first) :
    Tiles (fields.map fun f => (f.offset, following (fields.map (·.offset)) size f.offset)) first
      size := by
  intro x
  rw [List.countP_map]
  split
  · rename_i hx
    refine countP_eq_one ?_ ?_
    · obtain ⟨_, hoffset, hle, hlt⟩ := exists_following hfirst hx.1 hx.2
      obtain ⟨f, hf, rfl⟩ := List.mem_map.mp hoffset
      exact ⟨f, hf, by simp [hle, hlt]⟩
    · refine h.apart.imp_of_mem fun {f g} hf hg hapart => ?_
      have hf' : g.offset < f.offset → following (fields.map (·.offset)) size g.offset ≤ f.offset :=
        following_le (List.mem_map_of_mem (f := (·.offset)) hf)
      have hg' : f.offset < g.offset → following (fields.map (·.offset)) size f.offset ≤ g.offset :=
        following_le (List.mem_map_of_mem (f := (·.offset)) hg)
      have hposf := h.pos f hf
      have hposg := h.pos g hg
      simp only [Function.comp_apply, Bool.and_eq_true, decide_eq_true_eq]
      -- the smaller of the two offsets is followed by the larger at the latest
      rintro ⟨⟨hf₁, hf₂⟩, hg₁, hg₂⟩
      rcases hapart with hbefore | hbefore
      · have := hg' (by omega)
        omega
      · have := hf' (by omega)
        omega
  · rename_i hx
    refine List.countP_eq_zero.mpr fun f hf hin => hx ?_
    simp only [Function.comp_apply, Bool.and_eq_true, decide_eq_true_eq] at hin
    have hleast := (List.min?_eq_some_iff.mp hfirst).2 _ (List.mem_map_of_mem (f := (·.offset)) hf)
    have hbounds := h.following_bounds hf
    omega

end

/-! ## Records -/

section

variable {s : Setting} {isUnion : Bool} {fields : List (Field String Int)} {size : Int}

theorem laidOut_of_padded {mapped : List Binding.Field}
    (h : List.Forall₂
      (Padded s fun f => paddingAfter isUnion (fields.map (·.offset)) size f.offset f.size)
      (fields.filter (·.size ≠ 0)) mapped) : LaidOut s isUnion fields size mapped where
  presents := h.imp fun _ _ hpadded => ⟨hpadded.toPresents, hpadded.padding ▸ Int.le_max_left _ _⟩
  stays := by
    rintro rfl ⟨f, m⟩ hmem g hg hlt hle
    dsimp only at hlt hle ⊢
    have hnext : following (fields.map (·.offset)) size f.offset ≤ g.offset :=
      following_le (List.mem_map_of_mem (f := (·.offset)) hg) hlt
    rw [(List.forall₂_zip h hmem).padding]
    show f.offset + f.size + max 0 (following _ size f.offset - (f.offset + f.size)) ≤ g.offset
    omega
  tiles := by
    rintro rfl hne hpos hapart hwithin
    have separate : Separate fields size := ⟨hpos, hapart, hwithin⟩
    obtain ⟨first, hfirst⟩ := Option.isSome_iff_exists.mp
      (List.isSome_min?_of_ne_nil (l := fields.map (·.offset)) (by simpa using hne))
    refine ⟨first, hfirst, ?_⟩
    have hkept : fields.filter (·.size ≠ 0) = fields :=
      List.filter_eq_self.mpr fun f hf => decide_eq_true (Int.ne_of_gt (hpos f hf))
    rw [stretches_of_padded h, hkept]
    convert separate.tiles hfirst using 1
    refine List.map_congr_left fun f hf => Prod.ext rfl ?_
    have hbounds := separate.following_bounds hf
    show f.offset + f.size + max 0 (following _ size f.offset - (f.offset + f.size)) = _
    omega

/-- A record becomes a struct that accounts for its layout, and its fields without a size are
reported. -/
theorem declaration?_record {node : Declaration} {align : Int}
    (hbody : node.body = .record isUnion fields size align)
    {declaration : Option Binding.Declaration} (h : (declaration? s node).result = .ok declaration) :
    (declaration? s node).reports = sizelessReports node ∧
      ∃ d, declaration = some d ∧ ∃ mapped, d.body = .struct mapped size align ∧
        LaidOut s isUnion fields size mapped := by
  have hreports : sizelessReports node = sizelessOf node fields := by rw [sizelessReports, hbody]
  rw [declaration?, hbody] at h ⊢
  obtain ⟨mapped, hmapped, h, -⟩ := Outcome.bind_eq_ok h
  cases h
  obtain ⟨hfields, hpadded⟩ := fieldsOf_eq_ok fields hmapped
  refine ⟨?_, _, rfl, mapped, rfl, laidOut_of_padded hpadded⟩
  rw [hreports, ← hfields]
  exact (Outcome.reports_bind_of_ok hmapped).trans (List.append_nil _)

/-- A record whose mapping stops has the reports on the fields before. -/
theorem isPrefix_reports_declaration? {node : Declaration} {align : Int}
    (hbody : node.body = .record isUnion fields size align) :
    (declaration? s node).reports <+: sizelessReports node := by
  have hreports : sizelessReports node = sizelessOf node fields := by rw [sizelessReports, hbody]
  rw [declaration?, hbody, hreports]
  dsimp only
  cases hmapped : (fieldsOf s node
      (fun f => paddingAfter isUnion (fields.map (·.offset)) size f.offset f.size) fields).result with
  | error reason =>
    rw [Outcome.reports_bind_of_error hmapped]
    exact isPrefix_reports_fieldsOf fields
  | ok mapped =>
    rw [Outcome.reports_bind_of_ok hmapped]
    exact (List.append_nil _).symm ▸ isPrefix_reports_fieldsOf fields

end

/-! ## The whole run -/

section

variable {s : Setting} {node : Declaration}

theorem isSizeless_iff {name reason : String} {place : Option String} :
    Diagnostic.isSizeless ⟨.unmappable name reason, place⟩ = true ↔ reason = sizeless :=
  decide_eq_true_iff

theorem isSizeless_eq_false {name reason : String} {place : Option String} (h : reason ≠ sizeless) :
    Diagnostic.isSizeless ⟨.unmappable name reason, place⟩ = false :=
  decide_eq_false h

theorem passesReports_isSizeless (s : Setting) : PassesReports s (·.isSizeless) where
  once node name d h := by
    rcases reports_declaration? s node _ h with ⟨-, reason, hunusual, rfl⟩ | ⟨-, reason, rfl⟩
    · exact isSizeless_eq_false (hunusual.ne (by decide))
    · rfl
  bitness _ _ := rfl
  clash _ _ := isSizeless_eq_false (by decide)
  dangling _ _ _ := rfl

/-- The reports on fields without a size that a node makes when it has its turn. -/
def toldSizeless (s : Setting) (node : Declaration) : List Diagnostic :=
  ((eventsOf s node).filterMap Event.report?).filter (·.isSizeless)

theorem isSizeless_of_mem_sizelessReports : ∀ d ∈ sizelessReports node, d.isSizeless = true := by
  intro d hd
  unfold sizelessReports at hd
  split at hd
  · obtain ⟨f, -, rfl⟩ := List.mem_map.mp hd
    exact isSizeless_iff.mpr rfl
  · cases hd

theorem toldSizeless_of_isMapped (h : isMapped s node = true) :
    toldSizeless s node = (declaration? s node).reports.filter (·.isSizeless) := by
  rw [toldSizeless, eventsOf, if_pos h]
  rfl

/-- Only fields of records are reported to have no size. -/
theorem isPrefix_toldSizeless : toldSizeless s node <+: sizelessReports node := by
  cases hmapped : isMapped s node with
  | false =>
    rw [toldSizeless, eventsOf, hmapped]
    exact List.nil_prefix
  | true =>
    rw [toldSizeless_of_isMapped hmapped]
    by_cases hrecord : ∃ isUnion fields size align, node.body = .record isUnion fields size align
    · obtain ⟨isUnion, fields, size, align, hbody⟩ := hrecord
      exact (List.filter_eq_self.mpr isSizeless_of_mem_sizelessReports) ▸
        (isPrefix_reports_declaration? hbody).filter _
    · refine (List.filter_eq_nil_iff.mpr fun d hd hsizeless => ?_) ▸ List.nil_prefix
      obtain ⟨event, hevent, hreport⟩ := List.mem_filterMap.mp hd
      cases event with
      | report d' =>
        cases hreport
        obtain ⟨name, reason, hunmappable, rfl⟩ := reports_declaration? s node _ hevent
        cases hunmappable with
        | variadic => exact absurd (isSizeless_iff.mp hsizeless) (by decide)
        | sizeless hbody => exact hrecord ⟨_, _, _, _, hbody⟩
        | @constant type => exact noConstantForm_ne type (by decide) (isSizeless_iff.mp hsizeless)
      | reportOnce | helper => cases hreport

end

/-- A record that is mapped becomes a struct that accounts for its layout, and each of its fields
without a size is reported. So a run declares for every record that it keeps, and that refers to no
missing type, a struct of its fields with a size, in order and where they are, each followed by the
bytes up to what comes next; and the fields without a size that it reports are those of the records, in
order. -/
theorem record_laid_out (s : Setting) :
    (∀ node isUnion fields size align, node.body = .record isUnion fields size align →
      ∀ declaration, (declaration? s node).result = .ok declaration →
        (declaration? s node).reports = sizelessReports node ∧
        ∃ d, declaration = some d ∧ StandsFor d node ∧ ∃ mapped, d.body = .struct mapped size align ∧
          LaidOut s isUnion fields size mapped) ∧
    ∀ b, (run s).bindings = .ok b → ∃ told : Declaration → List Diagnostic,
      (run s).diagnostics.filter (·.isSizeless) = s.tree.nodes.flatMap told ∧
      (∀ node, told node <+: sizelessReports node) ∧
      ∀ node ∈ s.tree.nodes, isMapped s node = true → missing? s node = none →
        ∀ isUnion fields size align, node.body = .record isUnion fields size align →
          told node = sizelessReports node ∧
          ∃ d ∈ b.ofNodes, StandsFor d node ∧ ∃ mapped, d.body = .struct mapped size align ∧
            LaidOut s isUnion fields size mapped := by
  constructor
  · intro node isUnion fields size align hbody declaration hresult
    obtain ⟨hreports, d, rfl, hstruct⟩ := declaration?_record hbody hresult
    exact ⟨hreports, d, rfl, (explains_declaration? _ hresult).stands d rfl, hstruct⟩
  · intro b hrun
    refine ⟨toldSizeless s, filter_diagnostics_run (passesReports_isSizeless s) hrun,
      fun _ => isPrefix_toldSizeless, ?_⟩
    intro node hnode hmapped hmissing isUnion fields size align hbody
    rcases declared?_or_missing? hrun hnode hmapped with
      ⟨hsome, -⟩ | ⟨-, hdangling⟩ | ⟨-, -, ⟨_, _, htypedef, -⟩ | ⟨hnot, -⟩⟩
    · obtain ⟨d, hdeclared⟩ := Option.isSome_iff_exists.mp hsome
      obtain ⟨hreports, _, heq, hstruct⟩ := declaration?_record hbody (declaration?_of_declared? hdeclared)
      cases heq
      refine ⟨?_, d, (mem_ofNodes_iff hrun).mpr ⟨node, hnode, hdeclared⟩,
        standsFor_of_declared? hdeclared, hstruct⟩
      rw [toldSizeless_of_isMapped hmapped, hreports]
      exact List.filter_eq_self.mpr isSizeless_of_mem_sizelessReports
    · rw [hmissing] at hdangling
      cases hdangling
    · rw [hbody] at htypedef
      cases htypedef
    · rw [isDeclarable, hbody] at hnot
      cases hnot

/-- A tree with a record whose fields are not in the order of their offsets, and one with a field
without a size. -/
def frames : Setting where
  tree := ⟨"frames.h", 64, [
    ⟨"int", .primitive 4 4, none⟩,
    ⟨"short", .primitive 2 2, none⟩,
    ⟨"int[0]", .array "int" 0 0, none⟩,
    ⟨"frame", .record false [⟨"object", "short", 6, 2⟩, ⟨"head", "int", 0, 4⟩] 12 4, none⟩,
    ⟨"packet", .record false [⟨"length", "int", 0, 4⟩, ⟨"payload", "int[0]", 4, 0⟩] 4 4,
      some ⟨"frames.h", 7⟩⟩]⟩
  policy := ⟨"Frames", [], [], none⟩

/-- The struct of the first record is filled from its second field on, and the second record is reported
to have a field without a size. -/
theorem record_laid_out_frames :
    ∃ b, (run frames).bindings = .ok b ∧
      (∃ d ∈ b.ofNodes, d.origin = some "frame" ∧ ∃ mapped, d.body = .struct mapped 12 4 ∧
        Tiles (stretches [⟨"object", "short", 6, 2⟩, ⟨"head", "int", 0, 4⟩] mapped) 0 12) ∧
      (∃ told : Declaration → List Diagnostic,
        (run frames).diagnostics.filter (·.isSizeless) = frames.tree.nodes.flatMap told ∧
        told frames.tree.nodes[4] = [⟨.unmappable "packet.payload" sizeless, some "frames.h:7"⟩]) ∧
      ∃ d, (declaration? frames frames.tree.nodes[4]).result = .ok (some d) ∧
        d.origin = some "packet" := by
  have hok : (run frames).bindings.isOk = true := by decide +kernel
  have hdeclared : (declaration? frames frames.tree.nodes[4]).result.isOk = true := by decide +kernel
  cases hrun : (run frames).bindings with
  | error failure => rw [hrun] at hok; cases hok
  | ok b =>
    obtain ⟨told, hdiagnostics, -, hrecords⟩ := (record_laid_out frames).2 b hrun
    obtain ⟨-, d, hd, hstands, mapped, hbody, hlaidOut⟩ := hrecords frames.tree.nodes[3]
      (List.getElem_mem _) (by decide +kernel) (by decide +kernel) _ _ _ _ rfl
    obtain ⟨htold, -⟩ := hrecords frames.tree.nodes[4] (List.getElem_mem _) (by decide +kernel)
      (by decide +kernel) _ _ _ _ rfl
    obtain ⟨first, hfirst, htiles⟩ := hlaidOut.tiles rfl (by decide) (by decide) (by decide) (by decide)
    cases hfirst
    refine ⟨b, rfl, ⟨d, hd, hstands.origin, mapped, hbody, htiles⟩, ⟨told, hdiagnostics, htold⟩, ?_⟩
    cases hresult : (declaration? frames frames.tree.nodes[4]).result with
    | error reason => rw [hresult] at hdeclared; cases hdeclared
    | ok declaration =>
      obtain ⟨-, d, rfl, hstands, -⟩ := (record_laid_out frames).1 _ _ _ _ _ rfl declaration hresult
      exact ⟨d, rfl, hstands.origin⟩

end Mapping
end CInterop
