import CInterop.Proofs.Mapping.Decay

/-!
# Arrays as variables

A variable that is an array is bound as its first element, which lies where the variable does. If that
is an array again it is mapped as a value, that is as a pointer to the elements of the row: the only
level of pointers that the header does not have. The induction is on the arrays from the type of the
variable to the first type that is none.
-/

namespace CInterop.Mapping

open Header
open Binding (TypeUse)

/-- The name is that of an array of such elements. -/
def ElementOf (t : Declarations) (name element : String) : Prop :=
  ∃ node count size, t.node? name = some node ∧ node.body = .array element count size

/-- Through that many arrays the name leads to that type, which is no array. -/
inductive LeadsToElement (t : Declarations) : Nat → String → String → Prop where
  | element {name : String} {node : Declaration} (hnode : t.node? name = some node)
      (hkind : node.kind ≠ .array) : LeadsToElement t 0 name name
  | row {dims : Nat} {name element last : String} (hrow : ElementOf t name element)
      (h : LeadsToElement t dims element last) : LeadsToElement t (dims + 1) name last

/-- How a variable is bound whose type leads to an element through that many arrays: as the element, or
as a pointer if the rows of the variable are arrays themselves. -/
structure Exposes (s : Setting) (type : String) (dims : Nat) (last : String) (u : TypeUse) :
    Prop where
  element : dims ≤ 1 → (typeUse s last .value).result = .ok u
  pointer : 2 ≤ dims → ∃ row element inner, ElementOf s.tree type row ∧
    ElementOf s.tree row element ∧ LeadsToElement s.tree (dims - 2) element last ∧
    (elementUse (typeUse s) s element).result = .ok inner ∧ u = pointerUse s (inner.name ++ "*")

section

variable {s : Setting} {node : Declaration} {type : String}

/-- Every type leads to an element. -/
theorem exists_leadsToElement {t : Declarations} (closed : Closed t) (acyclic : Acyclic t)
    {name : String} (h : t.hasType name = true) : ∃ dims last, LeadsToElement t dims name last := by
  refine forall_types_of_acyclic (P := fun name => ∃ dims last, LeadsToElement t dims name last) closed
    acyclic (fun name node hnode hnext => ?_) h
  by_cases hkind : node.kind = .array
  · obtain ⟨element, count, size, hbody⟩ := array_body hkind
    obtain ⟨dims, last, hleads⟩ := hnext element (by rw [hbody]; rfl)
    exact ⟨dims + 1, last, .row ⟨node, count, size, hnode, hbody⟩ hleads⟩
  · exact ⟨0, name, .element hnode hkind⟩

/-- The type that a variable of this type is bound as. -/
def exposed (target : Declaration) (type : String) : String :=
  match target.body with
  | .array element .. => element
  | _ => type

/-- A variable is declared with the use of its type, or of the elements of its type. -/
theorem declaration?_global {declaration : Option Binding.Declaration}
    (hbody : node.body = .global type) (h : (declaration? s node).result = .ok declaration) :
    ∃ target u, s.tree.node? type = some target ∧
      (typeUse s (exposed target type) .value).result = .ok u ∧
      declaration = some (fromNode node "Variable" (.global node.name u)) := by
  rw [declaration?, hbody] at h
  obtain ⟨target, htarget, h, -⟩ := Outcome.bind_eq_ok h
  obtain ⟨u, hu, h, -⟩ := Outcome.bind_eq_ok h
  cases h
  exact ⟨target, u, node_eq_ok htarget, hu, rfl⟩

/-- One level of arrays is left out, and the next is mapped as a value. -/
theorem LeadsToElement.exposes {dims : Nat} {last : String} {target : Declaration} {u : TypeUse}
    (h : LeadsToElement s.tree dims type last) (htarget : s.tree.node? type = some target)
    (hu : (typeUse s (exposed target type) .value).result = .ok u) : Exposes s type dims last u := by
  cases h with
  | @element _ node hnode hkind =>
    obtain rfl : target = node := Option.some.inj (htarget.symm.trans hnode)
    have hexposed : exposed target type = type := by
      unfold exposed
      split
      · rename_i hbody
        rw [Node.kind, hbody] at hkind
        exact absurd rfl hkind
      · rfl
    rw [hexposed] at hu
    exact ⟨fun _ => hu, fun hdims => by omega⟩
  | @row dims _ element _ hrow h =>
    obtain ⟨node, count, size, hnode, hbody⟩ := id hrow
    obtain rfl : target = node := Option.some.inj (htarget.symm.trans hnode)
    have hexposed : exposed target type = element := by rw [exposed, hbody]
    rw [hexposed] at hu
    cases h with
    | element => exact ⟨fun _ => hu, fun hdims => by omega⟩
    | row hrow' h =>
      obtain ⟨node', _, _, hnode', hbody'⟩ := id hrow'
      obtain ⟨inner, hinner, hpointer⟩ := typeUse_array_eq_ok hnode' hbody' hu
      exact ⟨fun hdims => by omega, fun _ => ⟨_, _, inner, hrow, hrow', h, hinner, hpointer⟩⟩

end

/-- Variables are bound as what lies at their address, up to the second dimension. In a tree without
dangling references and without a cycle every array leads to elements that are no arrays, and, if the
counts have names, every variable is mapped. In a binding of such a tree a variable is declared with the
use of its elements if it is an array of them; if it is an array of arrays, it is declared as a pointer
to the elements of a row, although there is no pointer in it. -/
theorem global_exposes {s : Setting} (hclosed : s.tree.danglingReferences = [])
    (acyclic : Acyclic s.tree) :
    (∀ name array, s.tree.node? name = some array → array.kind = .array →
      ∃ dims last, 0 < dims ∧ LeadsToElement s.tree dims name last) ∧
    (CountsNamed s.tree → ∀ node ∈ s.tree.nodes, ∀ type, node.body = .global type →
      ∃ u, (declaration? s node).result = .ok (some (fromNode node "Variable" (.global node.name u))) ∧
        ∀ dims last, LeadsToElement s.tree dims type last → Exposes s type dims last u) ∧
    ∀ b, (run s).bindings = .ok b →
      ∀ node ∈ s.tree.nodes, isMapped s node = true → ∀ type, node.body = .global type →
        ∃ d ∈ b.declarations, StandsFor d node ∧ ∃ u, d.body = .global node.name u ∧
          ∀ dims last, LeadsToElement s.tree dims type last → Exposes s type dims last u := by
  have closed := closed_of_danglingReferences hclosed
  refine ⟨fun name array harray hkind => ?_, fun counts node hnode type hbody => ?_,
    fun b hrun node hnode hmapped type hbody => ?_⟩
  · have htype : s.tree.hasType name = true := hasType_iff.mpr ⟨array, harray, by rw [hkind]; rfl⟩
    obtain ⟨dims, last, hleads⟩ := exists_leadsToElement closed acyclic htype
    refine ⟨dims, last, Nat.pos_of_ne_zero fun hzero => ?_, hleads⟩
    subst hzero
    cases hleads with
    | element hnode hnot =>
      obtain rfl := Option.some.inj (harray.symm.trans hnode)
      exact hnot hkind
  · have hends := endsAtLiteral_declaration? (s := s) closed acyclic counts hnode
    rcases hends with ⟨declaration, hresult, -⟩ | ⟨-, hwritable⟩
    · obtain ⟨target, u, htarget, hu, rfl⟩ := declaration?_global hbody hresult
      exact ⟨u, hresult, fun dims last hleads => hleads.exposes htarget hu⟩
    · refine absurd (fun _ _ _ hconstant => ?_) hwritable
      rw [hbody] at hconstant
      cases hconstant
  · have hvoid : ¬NamesVoid s node := by
      rintro ⟨underlying, u, htypedef, -⟩
      rw [hbody] at htypedef
      cases htypedef
    obtain ⟨d, hd⟩ := exists_declared? closed hrun hnode hmapped (by rw [isDeclarable, hbody]) hvoid
    obtain ⟨target, u, htarget, hu, heq⟩ := declaration?_global hbody (declaration?_of_declared? hd)
    cases heq
    have hmem := (mem_ofNodes_iff hrun).mpr ⟨node, hnode, hd⟩
    exact ⟨_, List.mem_of_mem_filter hmem, standsFor_of_declared? hd, u, rfl,
      fun dims last hleads => hleads.exposes htarget hu⟩

/-- A tree with a variable that is an array of pointers, and one that is an array of arrays. -/
def tables : Setting where
  tree := ⟨"tables.h", 64, [
    ⟨"int", .primitive 4 4, none⟩,
    ⟨"int*", .pointer "int" 8, none⟩,
    ⟨"int*[2]", .array "int*" 2 16, none⟩,
    ⟨"int[3]", .array "int" 3 12, none⟩,
    ⟨"int[3][2]", .array "int[3]" 2 24, none⟩,
    ⟨"names", .global "int*[2]", none⟩,
    ⟨"grid", .global "int[3][2]", none⟩]⟩
  policy := ⟨"Tables", [], [], none⟩

/-- The array of pointers is bound as a pointer, which lies where the variable does, and so is the array
of arrays, where a number lies. -/
theorem global_exposes_tables :
    tables.tree.danglingReferences = [] ∧ Acyclic tables.tree ∧ CountsNamed tables.tree ∧
    (∃ dims last, 0 < dims ∧ LeadsToElement tables.tree dims "int[3][2]" last) ∧
    (∃ u, (declaration? tables tables.tree.nodes[5]).result =
        .ok (some (fromNode tables.tree.nodes[5] "Variable" (.global "names" u))) ∧
      (typeUse tables "int*" .value).result = .ok u) ∧
    ∃ b, (run tables).bindings = .ok b ∧ ∃ d ∈ b.declarations, d.name = "grid" ∧
      d.body = .global "grid" ⟨"int*", 8, 8, none⟩ := by
  have hclosed : tables.tree.danglingReferences = [] := by decide +kernel
  have hordered : ∀ node ∈ tables.tree.nodes, ∀ next ∈ spelledOver? node.body,
      tables.tree.names.idxOf next < tables.tree.names.idxOf node.name := by decide +kernel
  have acyclic : Acyclic tables.tree := acyclic_of_rank hordered
  have counts : CountsNamed tables.tree := countsNamed_of_counts (by decide +kernel)
  have hnames : LeadsToElement tables.tree 1 "int*[2]" "int*" :=
    .row ⟨_, _, _, rfl, rfl⟩ (.element rfl (by decide))
  have hgrid : LeadsToElement tables.tree 2 "int[3][2]" "int" :=
    .row ⟨_, _, _, rfl, rfl⟩ (.row ⟨_, _, _, rfl, rfl⟩ (.element rfl (by decide)))
  obtain ⟨harrays, hmapped, hbound⟩ := global_exposes hclosed acyclic
  refine ⟨hclosed, acyclic, counts, harrays "int[3][2]" _ rfl rfl, ?_, ?_⟩
  · obtain ⟨u, hu, hexposes⟩ := hmapped counts tables.tree.nodes[5] (List.getElem_mem _) _ rfl
    exact ⟨u, hu, (hexposes 1 "int*" hnames).element (by decide)⟩
  have hok : (run tables).bindings.isOk = true := by decide +kernel
  cases hrun : (run tables).bindings with
  | error failure => rw [hrun] at hok; cases hok
  | ok b =>
    obtain ⟨d, hd, hstands, u, hbody, hexposes⟩ := hbound b hrun tables.tree.nodes[6]
      (List.getElem_mem _) (by decide +kernel) _ rfl
    obtain ⟨row, element, inner, ⟨_, _, _, hrow, hrowBody⟩, ⟨_, _, _, helement, helementBody⟩, -,
      hinner, rfl⟩ := (hexposes 2 "int" hgrid).pointer (by decide)
    cases hrow
    cases hrowBody
    cases helement
    cases helementBody
    have hspelled : (elementUse (typeUse tables) tables "int").result = .ok ⟨"int", 4, 4, none⟩ := by
      decide +kernel
    cases hinner.symm.trans hspelled
    exact ⟨b, rfl, d, hd, hstands.name, hbody⟩

end CInterop.Mapping
