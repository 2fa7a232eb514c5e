import CInterop.Proofs.Extraction.Adding

/-!
# Where the fields of a record lie

The fields of an anonymous member count as fields of the record that it is a member of, at any depth. A
record therefore has parts, which begin at the sums of the offsets on the way to them, and every field
of its node is a field of one of them. Where the layout that the front end tells is consistent, the parts
lie within the record, and so do their fields.

A bit-field is exposed with its whole type, but at the byte in which its first bit is. Where that is not
the byte at which the type begins, the type may end behind the record.
-/

namespace CInterop

namespace FrontEnd.Translation

open Extraction (isName)

/-- A type is part of a record at an offset: it is the record itself, or that of an anonymous member of
a part. -/
inductive Part (t : Translation) (owner : TypeRef) : TypeRef → Int → Prop where
  | whole : Part t owner owner 0
  | member {part : TypeRef} {start : Int} {r : EntityRef} : Part t owner part start →
      r ∈ (t.type part).fields → isName (t.entity r).spelling = false →
      Part t owner (t.canonical (t.entity r).type) (start + (t.entity r).bitOffset / 8)

/-- The place of a field in a type of the given size is as the layout of C has it, which counts in bits.
A type without a size takes no room. -/
structure Places (t : Translation) (size : Int) (f : Entity) : Prop where
  starts : 0 ≤ f.bitOffset
  whole : f.bitWidth = none → f.bitOffset + 8 * max (t.type f.type).size 0 ≤ 8 * size
  bits : ∀ width ∈ f.bitWidth, f.bitOffset + width ≤ 8 * size ∧ (t.type f.type).size ≤ size
  /-- A member without a name that has fields is a record, as large as it is when all names are
  resolved. -/
  nested : isName f.spelling = false → (t.type (t.canonical f.type)).fields ≠ [] →
    f.bitWidth = none ∧ (t.type (t.canonical f.type)).size = (t.type f.type).size

instance (t : Translation) (size : Int) (f : Entity) : Decidable (t.Places size f) :=
  decidable_of_iff
    (0 ≤ f.bitOffset ∧
      (f.bitWidth = none → f.bitOffset + 8 * max (t.type f.type).size 0 ≤ 8 * size) ∧
      (∀ width ∈ f.bitWidth, f.bitOffset + width ≤ 8 * size ∧ (t.type f.type).size ≤ size) ∧
      (isName f.spelling = false → (t.type (t.canonical f.type)).fields ≠ [] →
        f.bitWidth = none ∧ (t.type (t.canonical f.type)).size = (t.type f.type).size))
    ⟨fun h => ⟨h.1, h.2.1, h.2.2.1, h.2.2.2⟩, fun h => ⟨h.starts, h.whole, h.bits, h.nested⟩⟩

/-- All fields have their places in the types that they are fields of. -/
def LaidOut (t : Translation) : Prop :=
  ∀ info ∈ t.types, ∀ r ∈ info.fields, t.Places info.size (t.entity r)

instance (t : Translation) : Decidable t.LaidOut :=
  inferInstanceAs (Decidable (∀ info ∈ t.types, ∀ r ∈ info.fields, t.Places info.size (t.entity r)))

/-- The field is a bit-field whose type, put at the byte in which its first bit is, ends behind the type
that it is a field of. -/
def Overhangs (t : Translation) (part : TypeRef) (f : Entity) : Prop :=
  f.bitWidth.isSome = true ∧ (t.type part).size < f.bitOffset / 8 + max (t.type f.type).size 0

theorem LaidOut.places {t : Translation} (h : t.LaidOut) {part : TypeRef} {r : EntityRef}
    (hr : r ∈ (t.type part).fields) : t.Places (t.type part).size (t.entity r) := by
  unfold type at hr ⊢
  cases hinfo : part.index?.bind (t.types[·]?) with
  | none =>
    rw [hinfo] at hr
    cases hr
  | some info =>
    rw [hinfo] at hr
    obtain ⟨i, -, hi⟩ := Option.bind_eq_some_iff.mp hinfo
    exact h info (Array.mem_of_getElem? hi) r hr

/-- A part with fields lies within the record. -/
theorem Part.within {t : Translation} (h : t.LaidOut) {owner part : TypeRef} {start : Int}
    (hpart : t.Part owner part start) (hfields : (t.type part).fields ≠ []) :
    0 ≤ start ∧ start + (t.type part).size ≤ (t.type owner).size := by
  -- on the way inwards, each member lies within the part before it
  induction hpart with
  | whole => omega
  | @member part start r _ hr hunnamed ih =>
    obtain ⟨hstart, hend⟩ := ih (List.ne_nil_of_mem hr)
    obtain ⟨hstarts, hwhole, -, hnested⟩ := h.places hr
    obtain ⟨hwidth, hsize⟩ := hnested hunnamed hfields
    have hplace := hwhole hwidth
    omega

end FrontEnd.Translation

namespace Extraction

open FrontEnd Header

/-- The field stands for one of the source, which a part of the record has at that offset. -/
structure Exposes (t : Translation) (owner part : TypeRef) (start : Int) (f : Entity)
    (field : Field String Int) : Prop where
  reached : t.Part owner part start
  declared : ∃ r ∈ (t.type part).fields, t.entity r = f
  name : field.name = f.spelling
  offset : field.offset = start + f.bitOffset / 8
  size : field.size = max (t.type f.type).size 0

/-- The field lies within a record of the given size, or it is one of a bit-field that overhangs. The bits
of a bit-field lie there in any case. -/
structure LiesWithin (t : Translation) (part : TypeRef) (size : Int) (f : Entity)
    (field : Field String Int) : Prop where
  starts : 0 ≤ field.offset
  fits : 0 ≤ field.size ∧ field.size ≤ size
  bits : ∀ width ∈ f.bitWidth, 8 * field.offset + width ≤ 8 * size
  ends : field.offset + field.size ≤ size ∨ t.Overhangs part f

theorem Exposes.liesWithin {t : Translation} {owner part : TypeRef} {start : Int} {f : Entity}
    {field : Field String Int} (h : Exposes t owner part start f field) (hlayout : t.LaidOut) :
    LiesWithin t part (max (t.type owner).size 0) f field := by
  obtain ⟨hpart, ⟨r, hr, rfl⟩, -, hoffset, hsize⟩ := h
  obtain ⟨hstart, hend⟩ := hpart.within hlayout (List.ne_nil_of_mem hr)
  obtain ⟨hstarts, hwhole, hbits, -⟩ := hlayout.places hr
  cases hwidth : (t.entity r).bitWidth with
  | none =>
    have hplace := hwhole hwidth
    refine ⟨by omega, by omega, fun width h => ?_, .inl (by omega)⟩
    rw [hwidth] at h
    cases h
  | some width =>
    obtain ⟨hlast, htype⟩ := hbits width hwidth
    refine ⟨by omega, by omega, fun other hother => ?_, ?_⟩
    · rw [hwidth] at hother
      cases hother
      omega
    · -- behind the record is behind the part, which ends within it
      by_cases hends : field.offset + field.size ≤ max (t.type owner).size 0
      · exact .inl hends
      · exact .inr ⟨by rw [hwidth]; rfl, by omega⟩

/-! ## The fields of nodes -/

namespace Build

variable {c : Setting} {resolve : TypeRef → Build String} {s s' : State}

/-- Every result of the step has the property. -/
def Yields {α : Type} (P : α → Prop) (x : Build α) : Prop := ∀ s a s', x s = .ok a s' → P a

theorem Yields.bind {α β : Type} {P : β → Prop} {x : Build α} {f : α → Build β}
    (hf : ∀ a, Yields P (f a)) : Yields P (x >>= f) := by
  intro s b s'' h
  obtain ⟨a, s', -, hrest⟩ := Steps.bind_eq_ok h
  exact hf a s' b s'' hrest

/-- A field with a name has its name, its offset and the size of its type. -/
theorem yields_namedField (record : String) (offset : Int) (f : Entity) :
    Yields (fun field => ∃ type, field = ⟨f.spelling, type, offset, max (c.type f.type).size 0⟩)
      (namedField c resolve record offset f) := by
  have htype : Yields (fun field : Field String Int =>
      ∃ type, field = ⟨f.spelling, type, offset, max (c.type f.type).size 0⟩) (do
        let type ← resolve f.type
        return ⟨f.spelling, type, offset, max (c.type f.type).size 0⟩) :=
    .bind fun type _ _ _ hpure => ⟨type, by cases hpure; rfl⟩
  unfold namedField
  dsimp only
  -- what is decided about the tag and told of the width does not change the field
  split
  · split
    · refine .bind fun _ => ?_
      split
      · exact .bind fun _ => htype
      · exact htype
    · split
      · exact .bind fun _ => htype
      · exact htype
  · split
    · exact .bind fun _ => htype
    · exact htype

/-- Every field that is found within a part of a record stands for one of a part. -/
theorem exposes_of_fieldsWithin {steps : Nat} {owner part : TypeRef} {record : String} {start : Int}
    {found : List (Field String Int)} (hpart : c.translation.Part owner part start)
    (h : fieldsWithin c resolve steps part record start s = .ok found s') :
    ∀ field ∈ found, ∃ part start f, Exposes c.translation owner part start f field := by
  induction steps generalizing part start s found s' with
  | zero => cases h
  | succ steps ih =>
    unfold fieldsWithin at h
    obtain ⟨parts, s₁, hparts, h⟩ := Steps.bind_eq_ok h
    cases h
    intro field hfield
    obtain ⟨fields, hfields, hmem⟩ := List.mem_flatten.mp hfield
    obtain ⟨r, hr, s₂, s₃, hstep⟩ := Steps.exists_of_mapM_eq_ok hparts fields hfields
    dsimp only at hstep
    -- a field with a name stands for itself, and a member without one is a part in turn
    split at hstep
    · obtain ⟨own, _, hown, hpure⟩ := Steps.bind_eq_ok hstep
      cases hpure
      obtain ⟨type, rfl⟩ := yields_namedField _ _ _ _ _ _ hown
      cases List.mem_singleton.mp hmem
      exact ⟨part, start, c.entity r, hpart, ⟨r, hr, rfl⟩, rfl, rfl, rfl⟩
    · rename_i hunnamed
      exact ih (hpart.member hr (Bool.eq_false_iff.mpr hunnamed)) hstep field hmem

/-- The fields of a record node stand for those of the parts of one record, which has the size of the
node. -/
def Arranged (t : Translation) (node : Declaration) : Prop :=
  ∀ isUnion fields size align, node.body = .record isUnion fields size align →
    ∃ owner, size = max (t.type owner).size 0 ∧
      ∀ field ∈ fields, ∃ part start f, Exposes t owner part start f field

theorem holdsOfRecords_arranged (c : Setting) : HoldsOfRecords c (Arranged c.translation) where
  other node hkind := by
    intro isUnion fields size align hbody
    exact absurd (by rw [Node.kind, hbody, Body.kind]) hkind
  record {resolve e name found s s'} h := by
    intro isUnion fields size align hbody
    cases hbody
    exact ⟨e.type, rfl, exposes_of_fieldsWithin .whole h⟩

end Build

/-! ## Whole runs -/

section

variable {options : Options} {directory : String} {isFile : Bool} {translation : Translation}

/-- Where the layout is consistent, every field of every record of an extracted tree lies within the
record, unless it is one of a bit-field that overhangs. -/
theorem run_fields_within (hlayout : translation.LaidOut) {t : Declarations}
    (hrun : (run options directory isFile translation).tree = .ok t) {node : Declaration}
    (hnode : node ∈ t.nodes) {isUnion : Bool} {fields : List (Field String Int)} {size align : Int}
    (hbody : node.body = .record isUnion fields size align) :
    ∃ owner, size = max (translation.type owner).size 0 ∧ ∀ field ∈ fields, ∃ part start f,
      Exposes translation owner part start f field ∧ LiesWithin translation part size f field := by
  obtain ⟨s₀, s, hopened, htree, -⟩ := run_eq_ok (c := options.setting directory translation) rfl hrun
  have harranged := hopened.forall_nodes (Build.holdsOfRecords_arranged _) htree node hnode
  obtain ⟨owner, rfl, hfields⟩ := harranged _ _ _ _ hbody
  refine ⟨owner, rfl, fun field hfield => ?_⟩
  obtain ⟨part, start, f, hexposes⟩ := hfields field hfield
  exact ⟨part, start, f, hexposes, hexposes.liesWithin hlayout⟩

end

/-- A header with `struct flags { unsigned low : 12; unsigned high : 20; };` and with
`struct frame { unsigned kind : 12; unsigned mode : 20; union { struct { short x, y; }; int both; }; };`. -/
def frameHeader : Translation where
  types := #[
    { kind := .scalar .unsignedInt, spelling := "unsigned int", size := 4, align := 4 },
    { kind := .scalar .short, spelling := "short", size := 2, align := 2 },
    { kind := .scalar .int, spelling := "int", size := 4, align := 4 },
    { kind := .record, spelling := "struct flags", size := 4, align := 4, declaration := ⟨some 0⟩
      fields := [⟨some 1⟩, ⟨some 2⟩] },
    { kind := .record, spelling := "struct frame", size := 8, align := 4, declaration := ⟨some 3⟩
      fields := [⟨some 4⟩, ⟨some 5⟩, ⟨some 6⟩] },
    { kind := .record, spelling := "union frame::(anonymous)", size := 4, align := 4
      fields := [⟨some 7⟩, ⟨some 8⟩] },
    { kind := .record, spelling := "struct frame::(anonymous)", size := 4, align := 2
      fields := [⟨some 9⟩, ⟨some 10⟩] }]
  entities := #[
    { kind := .struct, spelling := "flags", file := some "/work/test.h", line := 1, type := ⟨some 3⟩
      definition := ⟨some 0⟩ },
    { kind := .other ("FIELD_DECL"), spelling := "low", type := ⟨some 0⟩, bitWidth := some 12 },
    { kind := .other ("FIELD_DECL"), spelling := "high", type := ⟨some 0⟩, bitOffset := 12
      bitWidth := some 20 },
    { kind := .struct, spelling := "frame", file := some "/work/test.h", line := 2, type := ⟨some 4⟩
      definition := ⟨some 3⟩ },
    { kind := .other ("FIELD_DECL"), spelling := "kind", type := ⟨some 0⟩, bitWidth := some 12 },
    { kind := .other ("FIELD_DECL"), spelling := "mode", type := ⟨some 0⟩, bitOffset := 12
      bitWidth := some 20 },
    { kind := .other ("FIELD_DECL"), type := ⟨some 5⟩, bitOffset := 32 },
    { kind := .other ("FIELD_DECL"), type := ⟨some 6⟩ },
    { kind := .other ("FIELD_DECL"), spelling := "both", type := ⟨some 2⟩ },
    { kind := .other ("FIELD_DECL"), spelling := "x", type := ⟨some 1⟩ },
    { kind := .other ("FIELD_DECL"), spelling := "y", type := ⟨some 1⟩, bitOffset := 16 }]
  header := { top := [⟨some 0⟩, ⟨some 3⟩] }

/-- Reading that header. -/
def frameOptions : Options where
  header := "/work/test.h"
  bitness? := some 64

/-- The fields of the second record, of which all but the bit-fields are those of anonymous members. -/
def frameFields : List (Field String Int) :=
  [⟨"kind", "unsigned int", 0, 4⟩, ⟨"mode", "unsigned int", 1, 4⟩, ⟨"x", "short", 4, 2⟩,
    ⟨"y", "short", 6, 2⟩, ⟨"both", "int", 4, 4⟩]

/-- The fields of the second record lie within it. In the first one there is no room behind the
bit-fields, so that the type of the last one ends behind the record. -/
theorem run_fields_within_frameHeader :
    frameHeader.LaidOut ∧ ∃ t owner, (run frameOptions "/work" true frameHeader).tree = .ok t ∧
      ⟨"flags", .record false [⟨"low", "unsigned int", 0, 4⟩, ⟨"high", "unsigned int", 1, 4⟩] 4 4,
        some ⟨"test.h", 1⟩⟩ ∈ t.nodes ∧
      ⟨"frame", .record false frameFields 8 4, some ⟨"test.h", 2⟩⟩ ∈ t.nodes ∧
      8 = max (frameHeader.type owner).size 0 ∧ ∀ field ∈ frameFields, ∃ part start f,
        Exposes frameHeader owner part start f field ∧ LiesWithin frameHeader part 8 f field := by
  have hlayout : frameHeader.LaidOut := by decide +kernel
  have hnodes : (run frameOptions "/work" true frameHeader).tree.toOption.map (·.nodes) = some [
      ⟨"flags", .record false [⟨"low", "unsigned int", 0, 4⟩, ⟨"high", "unsigned int", 1, 4⟩] 4 4,
        some ⟨"test.h", 1⟩⟩,
      ⟨"unsigned int", .primitive 4 4, none⟩,
      ⟨"frame", .record false frameFields 8 4, some ⟨"test.h", 2⟩⟩,
      ⟨"short", .primitive 2 2, none⟩, ⟨"int", .primitive 4 4, none⟩] := by decide +kernel
  cases hrun : (run frameOptions "/work" true frameHeader).tree with
  | error failure =>
    rw [hrun] at hnodes
    cases hnodes
  | ok t =>
    rw [hrun] at hnodes
    have hall : t.nodes = _ := Option.some.inj hnodes
    have hflags : ⟨"flags", .record false [⟨"low", "unsigned int", 0, 4⟩,
        ⟨"high", "unsigned int", 1, 4⟩] 4 4, some ⟨"test.h", 1⟩⟩ ∈ t.nodes := hall ▸ .head _
    have hframe : ⟨"frame", .record false frameFields 8 4, some ⟨"test.h", 2⟩⟩ ∈ t.nodes :=
      hall ▸ .tail _ (.tail _ (.head _))
    obtain ⟨owner, hsize, hfields⟩ := run_fields_within hlayout hrun hframe rfl
    exact ⟨hlayout, t, owner, rfl, hflags, hframe, hsize, hfields⟩

end Extraction
end CInterop
