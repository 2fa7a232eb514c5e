import Mathlib.Algebra.Order.Ring.Int
import CInterop.Proofs.Mapping.Accounting

/-!
# The integer types of enumerations

An enumeration gets the first integer type of C# that has all its values. As the types are tried from the
smallest on, none that is smaller has them all, and as C# has the integer types of C up to eight bytes, the
type is never larger than the one that the enumeration has in C. The choice depends on which values there
are and on nothing else, and more values never make the type smaller.
-/

namespace CInterop

/-- Whether an integer of so many bytes, in two's complement if it is signed, can have the value. -/
def HasValue (isSigned : Bool) (bytes : Nat) (v : Int) : Prop :=
  if isSigned then -2 ^ (8 * bytes - 1) ≤ v ∧ v < 2 ^ (8 * bytes - 1) else 0 ≤ v ∧ v < 2 ^ (8 * bytes)

instance (isSigned : Bool) (bytes : Nat) (v : Int) : Decidable (HasValue isSigned bytes v) := by
  unfold HasValue
  infer_instance

/-! ## The narrowest type -/

namespace Binding.IntegerType

/-- The range of the type contains every one of the values. -/
def Holds (t : IntegerType) (values : List Int) : Prop := ∀ v ∈ values, HasValue t.isSigned t.size v

instance (t : IntegerType) (values : List Int) : Decidable (t.Holds values) := by
  unfold Holds
  infer_instance

variable {t t' : IntegerType} {values values' : List Int}

/-- The bounds of a type are those of its size and sign. -/
theorem hasValue_iff (t : IntegerType) (v : Int) :
    HasValue t.isSigned t.size v ↔ t.minimum ≤ v ∧ v ≤ t.maximum := by
  cases t <;> simp [HasValue, isSigned, size, minimum, maximum] <;> omega

theorem Holds.of_subset (h : t.Holds values') (hsub : values ⊆ values') : t.Holds values :=
  fun v hv => h v (hsub hv)

/-- A type has all of some values if it has the least and the greatest of them. -/
theorem covers_iff (hvalues : values ≠ []) (t : IntegerType) :
    t.covers (values.min?.getD 0) (values.max?.getD 0) = true ↔ t.Holds values := by
  obtain ⟨low, hlow⟩ : ∃ low, values.min? = some low := by
    cases hmin : values.min? with
    | none => exact absurd (List.min?_eq_none_iff.mp hmin) hvalues
    | some low => exact ⟨low, rfl⟩
  obtain ⟨high, hhigh⟩ : ∃ high, values.max? = some high := by
    cases hmax : values.max? with
    | none => exact absurd (List.max?_eq_none_iff.mp hmax) hvalues
    | some high => exact ⟨high, rfl⟩
  obtain ⟨hlowMem, hlowLe⟩ := List.min?_eq_some_iff.mp hlow
  obtain ⟨hhighMem, hhighLe⟩ := List.max?_eq_some_iff.mp hhigh
  rw [hlow, hhigh, Option.getD_some, Option.getD_some, covers, Bool.and_eq_true,
    decide_eq_true_iff, decide_eq_true_iff]
  constructor
  · rintro ⟨hminimum, hmaximum⟩ v hv
    have hv_low := hlowLe v hv
    have hv_high := hhighLe v hv
    exact (hasValue_iff t v).mpr ⟨by omega, by omega⟩
  · intro hholds
    exact ⟨((hasValue_iff t low).mp (hholds low hlowMem)).1,
      ((hasValue_iff t high).mp (hholds high hhighMem)).2⟩

theorem mem_all (t : IntegerType) : t ∈ all := by
  cases t <;> decide

theorem size_le_long (t : IntegerType) : t.size ≤ long.size := by
  cases t <;> decide

theorem byte_size_le (t : IntegerType) : byte.size ≤ t.size := by
  cases t <;> decide

/-- The types are listed from the smallest to the largest. -/
theorem pairwise_all : all.Pairwise fun t t' => t.size ≤ t'.size := by
  decide

/-- If some type has all the values, then the narrowest one has them, and no smaller one does. -/
theorem narrowest_of_holds (hvalues : values ≠ []) (h : t'.Holds values) :
    (narrowest values).Holds values ∧
      ∀ t : IntegerType, t.Holds values → (narrowest values).size ≤ t.size := by
  have hsome : (all.find? (·.covers (values.min?.getD 0) (values.max?.getD 0))).isSome := by
    rw [List.find?_isSome]
    exact ⟨t', mem_all t', (covers_iff hvalues t').mpr h⟩
  obtain ⟨first, hfirst⟩ := Option.isSome_iff_exists.mp hsome
  have hnarrowest : narrowest values = first := by
    unfold narrowest
    dsimp only
    rw [hfirst, Option.getD_some]
  obtain ⟨hcovers, before, after, hall, hbefore⟩ := List.find?_eq_some_iff_append.mp hfirst
  rw [hnarrowest]
  refine ⟨(covers_iff hvalues first).mp hcovers, fun t ht => ?_⟩
  have hsorted := pairwise_all
  have hmem := mem_all t
  rw [hall] at hsorted hmem
  rw [List.pairwise_append, List.pairwise_cons] at hsorted
  -- a type that has the values does not come before the first one that has them
  rcases List.mem_append.mp hmem with hmem | hmem
  · have hnot := hbefore t hmem
    rw [(covers_iff hvalues t).mpr ht] at hnot
    cases hnot
  · rcases List.mem_cons.mp hmem with rfl | hmem
    · exact Nat.le_refl _
    · exact hsorted.2.1.1 t hmem

/-- Where no type has all the values, the largest is taken. -/
theorem narrowest_of_not_holds (hvalues : values ≠ []) (h : ∀ t : IntegerType, ¬t.Holds values) :
    narrowest values = long := by
  have hnone : all.find? (·.covers (values.min?.getD 0) (values.max?.getD 0)) = none := by
    rw [List.find?_eq_none]
    exact fun t _ hcovers => h t ((covers_iff hvalues t).mp hcovers)
  unfold narrowest
  dsimp only
  rw [hnone, Option.getD_none]

/-- More values never make the type smaller. -/
theorem size_narrowest_le (hsub : values ⊆ values') :
    (narrowest values).size ≤ (narrowest values').size := by
  by_cases hvalues : values = []
  · subst hvalues
    exact byte_size_le _
  · have hvalues' : values' ≠ [] := by
      rintro rfl
      exact hvalues (List.subset_nil.mp hsub)
    by_cases h : ∃ t : IntegerType, t.Holds values'
    · obtain ⟨t, ht⟩ := h
      have hholds := (narrowest_of_holds hvalues' ht).1.of_subset hsub
      exact (narrowest_of_holds hvalues hholds).2 _ hholds
    · rw [narrowest_of_not_holds hvalues' (not_exists.mp h)]
      exact size_le_long _

/-- Neither their order nor how often a value occurs matters. -/
theorem narrowest_congr (h : ∀ v, v ∈ values ↔ v ∈ values') : narrowest values = narrowest values' := by
  by_cases hvalues : values = []
  · subst hvalues
    have hvalues' : values' = [] :=
      List.eq_nil_iff_forall_not_mem.mpr fun v hv => absurd ((h v).mpr hv) List.not_mem_nil
    rw [hvalues']
  · have hvalues' : values' ≠ [] := by
      rintro rfl
      exact hvalues (List.eq_nil_iff_forall_not_mem.mpr fun v hv =>
        absurd ((h v).mp hv) List.not_mem_nil)
    have hcovers (t : IntegerType) : t.covers (values.min?.getD 0) (values.max?.getD 0) =
        t.covers (values'.min?.getD 0) (values'.max?.getD 0) := by
      rw [Bool.eq_iff_iff, covers_iff hvalues, covers_iff hvalues']
      exact ⟨fun ht => ht.of_subset fun v hv => (h v).mpr hv,
        fun ht => ht.of_subset fun v hv => (h v).mp hv⟩
    unfold narrowest
    dsimp only
    rw [funext hcovers]

/-- C# has an integer type of every size and sign up to eight bytes. -/
theorem exists_isSigned_size (isSigned : Bool) {bytes : Nat} (h : bytes ∈ [1, 2, 4, 8]) :
    ∃ t : IntegerType, t.isSigned = isSigned ∧ t.size = bytes := by
  have hall : ∀ isSigned, ∀ bytes ∈ [1, 2, 4, 8],
      ∃ t ∈ all, t.isSigned = isSigned ∧ t.size = bytes := by
    decide
  obtain ⟨t, -, ht⟩ := hall isSigned bytes h
  exact ⟨t, ht⟩

end Binding.IntegerType

namespace Mapping

open Header
open Binding (IntegerType escape)

/-! ## Enumerations -/

/-- The name stands for an integer type of the tree, of at most eight bytes, that has all the values. -/
def IntegerFor (t : Declarations) (name : String) (bytes : Nat) (values : List Int) : Prop :=
  bytes ∈ [1, 2, 4, 8] ∧ t.sizeOf name = .ok (bytes : Int) ∧
    ∃ isSigned, ∀ v ∈ values, HasValue isSigned bytes v

/-- The declaration is an enumeration over the integer type with members for the values, in their order. -/
def Enumerates (d : Binding.Declaration) (integer : IntegerType)
    (values : List (Enumerator String Int)) : Prop :=
  ∃ members, d.body = .enumeration ⟨integer.name, integer.size, integer.size, none⟩ members ∧
    List.Forall₂ (fun v member => member.name = escape v.name ∧ member.value = v.value) values members

/-- The narrowest type for the values of an integer type is no larger than that. -/
theorem narrowest_of_integerFor {t : Declarations} {name : String} {bytes : Nat} {values : List Int}
    (hvalues : values ≠ []) (h : IntegerFor t name bytes values) :
    (IntegerType.narrowest values).Holds values ∧
      (∀ integer : IntegerType, integer.Holds values →
        (IntegerType.narrowest values).size ≤ integer.size) ∧
      (IntegerType.narrowest values).size ≤ bytes := by
  obtain ⟨hbytes, -, isSigned, hfit⟩ := h
  obtain ⟨integer, rfl, rfl⟩ := IntegerType.exists_isSigned_size isSigned hbytes
  obtain ⟨hholds, hleast⟩ := IntegerType.narrowest_of_holds hvalues hfit
  exact ⟨hholds, hleast, hleast integer hfit⟩

/-- Members that are written out one by one are those of the enumeration, in their order. -/
theorem enumerates_fromNode (node : Declaration) (sort : String) (integer : IntegerType)
    (values : List (Enumerator String Int)) :
    Enumerates (fromNode node sort (.enumeration ⟨integer.name, integer.size, integer.size, none⟩
      (values.map fun v => ⟨escape v.name, v.value⟩))) integer values := by
  refine ⟨_, rfl, ?_⟩
  rw [List.forall₂_map_right_iff]
  exact List.forall₂_same.mpr fun v _ => ⟨rfl, rfl⟩

/-- An enumeration with values is declared over the narrowest type for them, whatever else the tree
holds. -/
theorem declaration?_enumeration {s : Setting} {node : Declaration} {integerType : String}
    {values : List (Enumerator String Int)} (hbody : node.body = .enumeration integerType values)
    (hvalues : values ≠ []) :
    ∃ d, (declaration? s node).result = .ok (some d) ∧
      Enumerates d (IntegerType.narrowest (values.map (·.value))) values := by
  refine ⟨_, ?_, enumerates_fromNode node "Enum" _ values⟩
  have hempty : values.isEmpty = false := by simpa using hvalues
  rw [declaration?, hbody]
  dsimp only
  rw [backing, hempty]
  rfl

/-- An enumeration whose values its integer type in C can have, of at most eight bytes, is declared with
the same members in the same order, over an integer type that has all the values, that is no larger than
the one in C, and than which no smaller one has them all. The type is the narrowest one for the values,
which depends only on which they are, and does not become smaller if there are more of them. -/
theorem enumerations_narrowed (s : Setting) :
    (∀ node integerType values bytes, node.body = .enumeration integerType values → values ≠ [] →
      IntegerFor s.tree integerType bytes (values.map (·.value)) →
      ∃ integer : IntegerType, integer.Holds (values.map (·.value)) ∧
        (∀ other : IntegerType, other.Holds (values.map (·.value)) → integer.size ≤ other.size) ∧
        integer.size ≤ bytes ∧ integer = IntegerType.narrowest (values.map (·.value)) ∧
        (∃ d, (declaration? s node).result = .ok (some d) ∧ StandsFor d node ∧
          Enumerates d integer values) ∧
        ∀ b, (run s).bindings = .ok b → node ∈ s.tree.nodes → isMapped s node = true →
          ∃ d ∈ b.ofNodes, StandsFor d node ∧ Enumerates d integer values) ∧
    (∀ values values' : List Int, (∀ v, v ∈ values ↔ v ∈ values') →
      IntegerType.narrowest values = IntegerType.narrowest values') ∧
    ∀ values values' : List Int, values ⊆ values' →
      (IntegerType.narrowest values).size ≤ (IntegerType.narrowest values').size := by
  refine ⟨?_, fun _ _ h => IntegerType.narrowest_congr h,
    fun _ _ hsub => IntegerType.size_narrowest_le hsub⟩
  intro node integerType values bytes hbody hvalues hinteger
  have hmapped : values.map (·.value) ≠ [] := by
    rwa [Ne, List.map_eq_nil_iff]
  obtain ⟨hholds, hleast, hle⟩ := narrowest_of_integerFor hmapped hinteger
  obtain ⟨d, hresult, henumerates⟩ := declaration?_enumeration (s := s) hbody hvalues
  have hstands : StandsFor d node := (explains_declaration? _ hresult).stands d rfl
  refine ⟨_, hholds, hleast, hle, rfl, ⟨d, hresult, hstands, henumerates⟩, ?_⟩
  intro b hrun hnode hisMapped
  have hdeclared : declared? s node = some d := by
    rw [declared?, if_pos hisMapped, hresult]
    rfl
  exact ⟨d, (mem_ofNodes_iff hrun).mpr ⟨node, hnode, hdeclared⟩, hstands, henumerates⟩

/-- A tree with an enumeration of values of both signs, one of which is called like a reserved word. -/
def shades : Setting where
  tree := ⟨"shades.h", 64, [
    ⟨"int", .primitive 4 4, none⟩,
    ⟨"shade", .enumeration "int" [⟨"LIGHT", -1, none⟩, ⟨"base", 200, none⟩, ⟨"DARK", 7, none⟩],
      some ⟨"shades.h", 3⟩⟩]⟩
  policy := ⟨"Shades", [], [], none⟩

/-- Two bytes are enough for the values, which take four in C, and one byte is not. -/
theorem enumerations_narrowed_shades :
    ∃ b, (run shades).bindings = .ok b ∧ ∃ d ∈ b.ofNodes, d.origin = some "shade" ∧
      Enumerates d .short [⟨"LIGHT", -1, none⟩, ⟨"base", 200, none⟩, ⟨"DARK", 7, none⟩] ∧
      IntegerType.narrowest [7, 200, -1, 7] = IntegerType.narrowest [-1, 200, 7] ∧
      (IntegerType.narrowest [200]).size ≤ (IntegerType.narrowest [-1, 200, 7]).size := by
  have hok : (run shades).bindings.isOk = true := by decide +kernel
  have hfit : IntegerFor shades.tree "int" 4 [-1, 200, 7] :=
    ⟨by decide, by decide +kernel, true, by decide⟩
  obtain ⟨hdeclares, hcongr, hmono⟩ := enumerations_narrowed shades
  cases hrun : (run shades).bindings with
  | error failure => rw [hrun] at hok; cases hok
  | ok b =>
    obtain ⟨integer, hholds, hleast, -, -, -, hrunDeclares⟩ :=
      hdeclares shades.tree.nodes[1] _ _ 4 rfl (by decide) hfit
    have honly : ∀ t ∈ IntegerType.all, t.Holds [-1, 200, 7] → t.size ≤ 2 → t = .short := by decide
    have hshort : integer = .short :=
      honly integer (IntegerType.mem_all integer) hholds (hleast .short (by decide))
    obtain ⟨d, hd, hstands, henumerates⟩ :=
      hrunDeclares b hrun (List.getElem_mem _) (by decide +kernel)
    rw [hshort] at henumerates
    refine ⟨b, rfl, d, hd, hstands.origin, henumerates, hcongr _ _ fun v => ?_, hmono _ _ (by decide)⟩
    simp only [List.mem_cons, List.not_mem_nil, or_false]
    omega

end Mapping
end CInterop
