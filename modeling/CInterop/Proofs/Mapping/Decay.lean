import CInterop.Proofs.Mapping.Mention
import CInterop.Proofs.Mapping.Totality
import CInterop.Proofs.Mapping.Unfolding
import CInterop.Proofs.Success

/-!
# Arrays as parameters

A parameter that is an array in C has the size of a pointer, and if it is declared as an array it is
spelled as a pointer to the elements. If its type is a typedef of an array, it is spelled by the name of
that typedef instead, under which the whole array is declared. The induction is on the chain of typedefs
from the parameter to the array.
-/

namespace CInterop

/-- The parameters of a function or a function pointer. -/
def Binding.Body.parameters : Binding.Body → List Binding.Parameter
  | .function _ parameters _ | .functionPointer _ parameters _ => parameters
  | _ => []

namespace Mapping

open Header
open Binding (TypeUse escape)

/-- The parameters of a function with a fixed number of them, or of a function pointer. -/
def parameters? : Body String Int Bool → Option (List (Parameter String))
  | .function _ parameters false _ => some parameters
  | .functionPointer _ parameters _ => some parameters
  | _ => none

/-- Through that many typedefs, none of which is ignored or replaced, the name leads to that array. -/
inductive LeadsToArray (s : Setting) : Nat → String → Declaration → Prop where
  | array {name : String} {array : Declaration} (hnode : s.tree.node? name = some array)
      (hkind : array.kind = .array) : LeadsToArray s 0 name array
  | link {links : Nat} {name underlying : String} {node array : Declaration}
      (hnode : s.tree.node? name = some node) (hbody : node.body = .typedef underlying)
      (hignored : s.policy.ignores name = false) (halias : s.policy.aliasFor? name = none)
      (h : LeadsToArray s links underlying array) : LeadsToArray s (links + 1) name array

/-- How a type that leads to an array is passed: in the size of a pointer, by the spelling of a pointer
to the elements, or else by the name of the typedef. -/
structure Decays (s : Setting) (links : Nat) (name : String) (array : Declaration) (u : TypeUse) :
    Prop where
  size : u.size = s.pointerSize
  align : u.align = s.pointerSize
  count : u.count = none
  direct : links = 0 → ∃ element count size inner, array.body = .array element count size ∧
    (elementUse (typeUse s) s element).result = .ok inner ∧ u.name = inner.name ++ "*"
  named : 0 < links → u.name = escape name

section

variable {s : Setting} {links : Nat} {name : String} {array : Declaration} {u : TypeUse}

theorem array_body {node : Declaration} (h : node.kind = .array) :
    ∃ element count size, node.body = .array element count size := by
  rw [Node.kind] at h
  cases hbody : node.body <;> rw [hbody] at h <;> cases h
  exact ⟨_, _, _, rfl⟩

/-- No type that leads to an array is spelled `void`. -/
theorem LeadsToArray.not_standsForVoid (h : LeadsToArray s links name array) :
    ¬StandsForVoid s name := by
  induction h with
  | array hnode hkind => exact not_standsForVoid_of_kind hnode (.inr hkind)
  | link hnode hbody hignored halias _ ih =>
    intro hvoid
    rcases (standsForVoid_iff hnode hignored halias).mp hvoid with ⟨hkind, -⟩ | ⟨other, hother, hvoid⟩
    · rw [Node.kind, hbody] at hkind
      cases hkind
    · rw [hbody] at hother
      cases hother
      exact ih hvoid

theorem LeadsToArray.hasType (h : LeadsToArray s links name array) : s.tree.hasType name = true := by
  cases h with
  | array hnode hkind => exact hasType_iff.mpr ⟨array, hnode, by rw [hkind]; rfl⟩
  | link hnode hbody => exact hasType_iff.mpr ⟨_, hnode, by rw [Node.kind, hbody]; rfl⟩

/-- Every typedef on the way passes the pointer on under its own name. -/
theorem LeadsToArray.decays (h : LeadsToArray s links name array)
    (hu : (typeUse s name .value).result = .ok u) : Decays s links name array u := by
  induction h generalizing u with
  | array hnode hkind =>
    obtain ⟨element, count, size, hbody⟩ := array_body hkind
    obtain ⟨inner, hinner, hu⟩ := typeUse_array_eq_ok hnode hbody hu
    dsimp only at hu
    subst hu
    exact ⟨rfl, rfl, rfl, fun _ => ⟨element, count, size, inner, hbody, hinner, rfl⟩, nofun⟩
  | @link links name underlying node array hnode hbody hignored halias _ ih =>
    obtain ⟨inner, hinner, hu⟩ := typeUse_typedef_eq_ok hnode hbody hignored halias hu
    have hdecays := ih hinner
    have hvoid : inner.name ≠ "void" := by
      rcases Nat.eq_zero_or_pos links with hzero | hpos
      · obtain ⟨_, _, _, element, -, -, hname⟩ := hdecays.direct hzero
        rw [hname]
        exact star_ne_void _
      · rw [hdecays.named hpos]
        exact escape_ne_void _
    rw [if_neg hvoid] at hu
    subst hu
    exact ⟨hdecays.size, hdecays.align, rfl, nofun, fun _ => rfl⟩

/-- In a field the whole array is there. -/
theorem LeadsToArray.size_field (h : LeadsToArray s links name array)
    (hu : (typeUse s name .field).result = .ok u) : u.size = array.body.statedSize := by
  induction h generalizing u with
  | array hnode hkind =>
    obtain ⟨element, count, size, hbody⟩ := array_body hkind
    obtain ⟨inner, -, hu⟩ := typeUse_array_eq_ok hnode hbody hu
    rw [hbody]
    dsimp only at hu
    split at hu
    · subst hu
      rfl
    · obtain ⟨helper, -, rfl⟩ := hu
      rfl
  | link hnode hbody hignored halias _ ih =>
    obtain ⟨inner, hinner, rfl⟩ := typeUse_typedef_eq_ok hnode hbody hignored halias hu
    rw [← ih hinner]
    split <;> rfl

/-! ## Parameters -/

/-- Every parameter has the use of its type as a value. -/
theorem forall₂_parametersFrom {index : Nat} {parameters : List (Parameter String)}
    {mapped : List Binding.Parameter}
    (h : (parametersFrom s index parameters).result = .ok mapped) :
    List.Forall₂ (fun p q => (typeUse s p.type .value).result = .ok q.type) parameters mapped := by
  induction parameters generalizing index mapped with
  | nil =>
    cases h
    exact .nil
  | cons p rest ih =>
    obtain ⟨type, htype, h, -⟩ := Outcome.bind_eq_ok h
    obtain ⟨others, hothers, h, -⟩ := Outcome.bind_eq_ok h
    cases h
    exact .cons htype (ih hothers)

/-- The declaration of a function has the parameters of the function. -/
theorem forall₂_declaration? {node : Declaration} {parameters : List (Parameter String)}
    {d : Binding.Declaration} (hparameters : parameters? node.body = some parameters)
    (h : (declaration? s node).result = .ok (some d)) :
    List.Forall₂ (fun p q => (typeUse s p.type .value).result = .ok q.type) parameters
      d.body.parameters := by
  unfold parameters? at hparameters
  unfold declaration? at h
  split at hparameters <;> cases hparameters
  all_goals
    rename_i hbody
    rw [hbody] at h
    obtain ⟨result, -, h, -⟩ := Outcome.bind_eq_ok h
    obtain ⟨mapped, hmapped, h, -⟩ := Outcome.bind_eq_ok h
    cases h
    exact forall₂_parametersFrom hmapped

variable {b : Binding.Bindings} {node : Declaration}

/-- In a tree without dangling references, what can be declared is declared. -/
theorem exists_declared? (closed : Closed s.tree) (hrun : (run s).bindings = .ok b)
    (hnode : node ∈ s.tree.nodes) (hmapped : isMapped s node = true)
    (hdeclarable : isDeclarable node = true) (hvoid : ¬NamesVoid s node) :
    ∃ d, declared? s node = some d := by
  rcases declared?_or_missing? hrun hnode hmapped with
    ⟨hsome, -⟩ | ⟨-, hmissing⟩ | ⟨-, -, hnamesVoid | ⟨hnot, -⟩⟩
  · exact Option.isSome_iff_exists.mp hsome
  · have hmeets : Meets s [] (declaration? s node) (DeclarationOf s node) :=
      meets_declaration? closed hnode
    rw [missing?, if_pos hmapped] at hmissing
    split at hmissing
    · rename_i type hresult
      exact absurd hresult (hmeets.found type)
    · cases hmissing
  · exact absurd hnamesVoid hvoid
  · rw [hdeclarable] at hnot
    cases hnot

/-- The typedef of an array is declared with the size of the array. -/
theorem aliasStruct_of_leadsToArray (closed : Closed s.tree) (hrun : (run s).bindings = .ok b)
    (h : LeadsToArray s links name array) (hlinks : 0 < links) :
    ∃ d ∈ b.declarations, d.name = escape name ∧
      ∃ type, d.body = .aliasStruct type ∧ type.size = array.body.statedSize := by
  cases h with
  | array => cases hlinks
  | @link links _ underlying node _ hnode hbody hignored halias h =>
    have hkind : node.kind = .typedef := by rw [Node.kind, hbody]; rfl
    have hmapped : isMapped s node = true := by
      rw [isMapped, isInline, hkind, node?_name hnode, hignored, halias]
      rfl
    have hmeets {u : TypeUse} (hu : (typeUse s underlying .field).result = .ok u) :
        u.name ≠ "void" := by
      have huse : Meets s [] (typeUse s underlying .field) (UseOf s underlying) :=
        meets_typeUse closed .field h.hasType
      exact fun hvoid => h.not_standsForVoid ((huse.result u hu).2.mp hvoid)
    have hvoid : ¬NamesVoid s node := by
      rintro ⟨other, u, hother, hu, hvoid⟩
      rw [hbody] at hother
      cases hother
      exact hmeets hu hvoid
    obtain ⟨d, hd⟩ := exists_declared? closed hrun (node?_mem hnode) hmapped
      (by rw [isDeclarable, hbody]) hvoid
    have hstands := standsFor_of_declared? hd
    have hresult := declaration?_of_declared? hd
    rw [declaration?, hbody] at hresult
    obtain ⟨u, hu, hresult, -⟩ := Outcome.bind_eq_ok hresult
    rw [if_neg (hmeets hu)] at hresult
    cases hresult
    have hmem := (mem_ofNodes_iff hrun).mpr ⟨node, node?_mem hnode, hd⟩
    exact ⟨_, List.mem_of_mem_filter hmem, hstands.name.trans (by rw [node?_name hnode]), u, rfl,
      h.size_field hu⟩

end

/-- Arrays are passed in the size of a pointer. In a tree without dangling references and without a cycle
whose counts have names, a type that leads to an array has a use as a value, which decays. In a binding of
such a tree every function is declared with the uses of its parameters: one that is an array is spelled as
a pointer to the elements, and one that is a typedef of an array by its name, which is declared as a type
of its own with the size of the array. -/
theorem array_parameters_decay {s : Setting} (hclosed : s.tree.danglingReferences = [])
    (acyclic : Acyclic s.tree) :
    (CountsNamed s.tree → ∀ links name array, LeadsToArray s links name array →
      ∃ u, (typeUse s name .value).result = .ok u ∧ Decays s links name array u) ∧
    ∀ b, (run s).bindings = .ok b →
      ∀ node ∈ s.tree.nodes, isMapped s node = true →
      ∀ parameters, parameters? node.body = some parameters →
        ∃ d ∈ b.declarations, StandsFor d node ∧
          List.Forall₂ (fun p q => ∀ links array, LeadsToArray s links p.type array →
            Decays s links p.type array q.type ∧
            (0 < links → ∃ other ∈ b.declarations, other.name = q.type.name ∧
              ∃ type, other.body = .aliasStruct type ∧ type.size = array.body.statedSize))
            parameters d.body.parameters := by
  have closed := closed_of_danglingReferences hclosed
  constructor
  · intro counts links name array h
    obtain ⟨u, hu, -⟩ := ends_typeUse closed acyclic counts .value h.hasType
    exact ⟨u, hu, h.decays hu⟩
  · intro b hrun node hnode hmapped parameters hparameters
    have hdeclarable : isDeclarable node = true := by
      unfold parameters? at hparameters
      unfold isDeclarable
      split at hparameters
      · rename_i hbody
        rw [hbody]
        rfl
      · rename_i hbody
        rw [hbody]
      · cases hparameters
    have hvoid : ¬NamesVoid s node := by
      rintro ⟨underlying, u, hbody, -⟩
      rw [hbody] at hparameters
      cases hparameters
    obtain ⟨d, hd⟩ := exists_declared? closed hrun hnode hmapped hdeclarable hvoid
    have hmem := (mem_ofNodes_iff hrun).mpr ⟨node, hnode, hd⟩
    refine ⟨d, List.mem_of_mem_filter hmem, standsFor_of_declared? hd, ?_⟩
    refine (forall₂_declaration? hparameters (declaration?_of_declared? hd)).imp ?_
    intro p q hq links array h
    have hdecays := h.decays hq
    refine ⟨hdecays, fun hlinks => ?_⟩
    rw [hdecays.named hlinks]
    exact aliasStruct_of_leadsToArray closed hrun h hlinks

/-- A tree with a function whose parameters are an array, arrays by the names of typedefs, and an array of
arrays. -/
def vectors : Setting where
  tree := ⟨"vectors.h", 64, [
    ⟨"float", .primitive 4 4, none⟩,
    ⟨"void", .primitive 0 0, none⟩,
    ⟨"float[3]", .array "float" 3 12, none⟩,
    typedefNode "vec" "float[3]",
    typedefNode "spot" "vec",
    ⟨"vec[2]", .array "vec" 2 24, none⟩,
    ⟨"draw", .function "void" [⟨"at", "spot"⟩, ⟨"color", "float[3]"⟩, ⟨"to", "vec"⟩, ⟨"box", "vec[2]"⟩]
      false "cdecl", none⟩]⟩
  policy := ⟨"Vectors", [], [], none⟩

theorem array_parameters_decay_vectors :
    vectors.tree.danglingReferences = [] ∧ Acyclic vectors.tree ∧ CountsNamed vectors.tree ∧
    (∃ u, (typeUse vectors "spot" .value).result = .ok u ∧ u.name = "spot" ∧ u.size = 8) ∧
    ∃ b, (run vectors).bindings = .ok b ∧ ∃ d ∈ b.declarations, d.name = "draw" ∧
      d.body.parameters.map (fun q => (q.type.name, q.type.size)) =
        [("spot", 8), ("float*", 8), ("vec", 8), ("vec*", 8)] ∧
      ∃ other ∈ b.declarations, other.name = "spot" ∧
        ∃ type, other.body = .aliasStruct type ∧ type.size = 12 := by
  have hclosed : vectors.tree.danglingReferences = [] := by decide +kernel
  have hordered : ∀ node ∈ vectors.tree.nodes, ∀ next ∈ spelledOver? node.body,
      vectors.tree.names.idxOf next < vectors.tree.names.idxOf node.name := by decide +kernel
  have acyclic : Acyclic vectors.tree := acyclic_of_rank hordered
  have counts : CountsNamed vectors.tree := countsNamed_of_counts (by decide +kernel)
  have hleads : LeadsToArray vectors 2 "spot" ⟨"float[3]", .array "float" 3 12, none⟩ :=
    .link rfl rfl (by decide +kernel) (by decide +kernel)
      (.link rfl rfl (by decide +kernel) (by decide +kernel) (.array rfl rfl))
  refine ⟨hclosed, acyclic, counts, ?_, ?_⟩
  · obtain ⟨u, hu, hdecays⟩ :=
      (array_parameters_decay hclosed acyclic).1 counts 2 "spot" _ hleads
    exact ⟨u, hu, hdecays.named (by decide), hdecays.size⟩
  have hparameters : (run vectors).bindings.toOption.map (fun b =>
      (b.declarations.filter (·.name = "draw")).map fun d =>
        d.body.parameters.map fun q => (q.type.name, q.type.size)) =
      some [[("spot", 8), ("float*", 8), ("vec", 8), ("vec*", 8)]] := by decide +kernel
  obtain ⟨b, hrun, hnames⟩ := eq_ok_of_toOption_map hparameters
  obtain ⟨d, hd, hstands, hdecay⟩ := (array_parameters_decay hclosed acyclic).2 b hrun _
    (List.getElem_mem (show 6 < vectors.tree.nodes.length by decide)) (by decide +kernel) _ rfl
  have hname : d.name = "draw" := hstands.name
  have hmem : d ∈ b.declarations.filter (·.name = "draw") :=
    List.mem_filter.mpr ⟨hd, decide_eq_true hname⟩
  have hspelled := List.mem_map_of_mem (f := fun d => d.body.parameters.map fun q =>
    (q.type.name, q.type.size)) hmem
  rw [hnames, List.mem_singleton] at hspelled
  obtain ⟨q, others, hfirst, -⟩ := List.forall₂_cons_left_iff.mp hdecay
  obtain ⟨hdecays, hdeclared⟩ := hfirst 2 _ hleads
  obtain ⟨other, hother, hcalled, type, hbody, hsize⟩ := hdeclared (by decide)
  refine ⟨b, hrun, d, hd, hname, hspelled, other, hother, ?_, type, hbody, hsize⟩
  exact hcalled.trans (hdecays.named (by decide))

end Mapping
end CInterop
