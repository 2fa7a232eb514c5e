import CInterop.Proofs.Mapping.Spelling

/-!
# Uses of types

In a tree whose references are all to types, every use of a type is spelled over declared names and
names that are owed. The spelling is `void` for the same types at every place, which is why a typedef
that is left out for standing for `void` is never used by its own name.
-/

namespace CInterop.Mapping

open Header
open Binding (TypeUse IntegerType escape fixedBufferName?)

/-! ## References -/

theorem hasType_iff {tree : Declarations} {name : String} :
    tree.hasType name = true ↔ ∃ node, tree.node? name = some node ∧ node.kind.isType = true := by
  simp [Tree.hasType, Option.any_eq_true]

/-- Every reference of the tree is to one of its types. -/
def Closed (tree : Declarations) : Prop :=
  ∀ node ∈ tree.nodes, ∀ name ∈ node.body.references, tree.hasType name = true

theorem closed_of_danglingReferences {tree : Declarations} (h : tree.danglingReferences = []) :
    Closed tree := by
  intro node hnode name hname
  rw [Tree.danglingReferences, List.flatMap_eq_nil_iff] at h
  have hnone := h node hnode
  rw [List.map_eq_nil_iff, List.filter_eq_nil_iff] at hnone
  simpa using hnone name hname

/-! ## Spellings that are not `void` -/

theorem escape_ne_void (name : String) : escape name ≠ "void" := by
  unfold escape
  split
  · intro h
    have hhead := congrArg (·.toList.head?) h
    simp at hhead
  · rintro rfl
    rename_i hkeyword
    exact hkeyword (by decide)

theorem star_ne_void (text : String) : text ++ "*" ≠ "void" := by
  intro h
  have hlast := congrArg (·.toList.getLast?) h
  simp at hlast

theorem fixedBufferName?_ne_void {element name : String} {count : Int}
    (h : fixedBufferName? element count = some name) : name ≠ "void" := by
  rintro rfl
  obtain ⟨words, -, hname⟩ := Option.map_eq_some_iff.mp h
  have hhead := congrArg (·.toList.head?) hname
  simp at hhead

/-! ## Types that stand for `void` -/

section

variable {s : Setting} {name : String} {node : Declaration}

theorem not_standsForVoid_of_ignored (h : s.policy.ignores name = true) :
    ¬ StandsForVoid s name := by
  intro hvoid
  cases hvoid <;> simp_all

theorem not_standsForVoid_of_kind (hnode : s.tree.node? name = some node)
    (h : node.kind = .pointer ∨ node.kind = .array) : ¬ StandsForVoid s name := by
  intro hvoid
  cases hvoid with
  | aliased hnode' hpointer harray => 
    cases hnode.symm.trans hnode'
    exact h.elim hpointer harray
  | primitive hnode' hbody =>
    cases hnode.symm.trans hnode'
    simp [Node.kind, hbody, Body.kind] at h
  | typedef hnode' hbody =>
    cases hnode.symm.trans hnode'
    simp [Node.kind, hbody, Body.kind] at h

/-- A type that is replaced stands for `void` if its replacement is. -/
theorem standsForVoid_of_alias {target : String} (hnode : s.tree.node? name = some node)
    (hpointer : node.kind ≠ .pointer) (harray : node.kind ≠ .array)
    (hignored : s.policy.ignores name = false) (halias : s.policy.aliasFor? name = some target) :
    target = "void" ↔ StandsForVoid s name := by
  constructor
  · rintro rfl
    exact .aliased hnode hpointer harray hignored halias
  · intro hvoid
    cases hvoid <;> simp_all

/-- Without an ignore rule and an alias only the C type itself and typedefs can stand for `void`. -/
theorem standsForVoid_iff (hnode : s.tree.node? name = some node)
    (hignored : s.policy.ignores name = false) (halias : s.policy.aliasFor? name = none) :
    StandsForVoid s name ↔
      (node.kind = .primitive ∧ name = "void") ∨
      (∃ underlying, node.body = .typedef underlying ∧ StandsForVoid s underlying) := by
  constructor
  · intro hvoid
    cases hvoid with
    | aliased _ _ _ _ halias' => simp_all
    | primitive hnode' hbody =>
      cases hnode.symm.trans hnode'
      exact .inl ⟨by rw [Node.kind, hbody, Body.kind], rfl⟩
    | typedef hnode' hbody _ _ hunderlying =>
      cases hnode.symm.trans hnode'
      exact .inr ⟨_, hbody, hunderlying⟩
  · rintro (⟨hkind, rfl⟩ | ⟨underlying, hbody, hunderlying⟩)
    · obtain ⟨size, align, hbody⟩ : ∃ size align, node.body = .primitive size align := by
        unfold Node.kind Body.kind at hkind
        split at hkind <;> first | exact ⟨_, _, ‹_›⟩ | cases hkind
      exact .primitive hnode hbody hignored halias
    · exact .typedef hnode hbody hignored halias hunderlying

end

/-! ## Rules for one node -/

/-- The post-condition of a use: its spelling is in order, and is `void` if the type stands for it. -/
abbrev UseOf (s : Setting) (name : String) (names : List String) (u : TypeUse) : Prop :=
  Spelled s names u.name ∧ (u.name = "void" ↔ StandsForVoid s name)

section

variable {s : Setting} {known : List String}

theorem node_of_hasType {name : String} (h : s.tree.hasType name = true) :
    ∃ node, s.node name = .ok node ∧ s.tree.node? name = some node ∧ node.kind.isType = true := by
  obtain ⟨node, hnode, hkind⟩ := hasType_iff.mp h
  exact ⟨node, by rw [Setting.node, hnode], hnode, hkind⟩

theorem sizeWithin_found (closed : Closed s.tree) (steps : Nat) :
    ∀ links name, s.tree.hasType name = true →
      ∀ type, s.sizeWithin steps links name ≠ .error (.dangling type) := by
  induction steps with
  | zero =>
    intro links name htype type h
    cases h
  | succ steps ih =>
    intro links name htype type
    obtain ⟨node, hok, hnode, -⟩ := node_of_hasType htype
    have hrefs := closed node (node?_mem hnode)
    rw [Setting.sizeWithin, hok]
    dsimp only [bind, Except.bind]
    split
    · rename_i underlying hbody
      rw [hbody] at hrefs
      split
      · exact ih _ underlying (hrefs underlying (List.mem_singleton.mpr rfl)) type
      · intro h
        cases h
    · rename_i integerType values hbody
      rw [hbody] at hrefs
      exact ih _ integerType (hrefs integerType (List.mem_singleton.mpr rfl)) type
    · intro h
      cases h

theorem meets_sizeOf (closed : Closed s.tree) {name : String} (h : s.tree.hasType name = true) :
    Meets s known (Outcome.ofExcept (s.sizeOf name)) fun _ _ => True :=
  .ofExcept (sizeWithin_found closed _ _ _ h) fun _ _ => trivial

theorem meets_node {name : String} (h : s.tree.hasType name = true) :
    Meets s known (Outcome.ofExcept (s.node name)) fun _ node =>
      s.tree.node? name = some node ∧ node.kind.isType = true := by
  obtain ⟨node, hok, hnode⟩ := node_of_hasType h
  rw [hok]
  exact .ofExcept nofun fun a ha => by cases ha; exact hnode

theorem meets_report {diagnostic : Diagnostic} (h : diagnostic.severity = .warning) :
    Meets s known (Outcome.emit (.report diagnostic)) fun _ _ => True := by
  refine .emit ?_ trivial
  show diagnostic.severity ≠ .error
  rw [h]
  decide

theorem meets_reportOnce {name : String} {diagnostic : Diagnostic}
    (h : diagnostic.severity = .warning) :
    Meets s known (Outcome.emit (.reportOnce name diagnostic)) fun _ _ => True := by
  refine .emit ?_ trivial
  show diagnostic.severity ≠ .error
  rw [h]
  decide

theorem integerType_name_mem (t : IntegerType) : t.name ∈ builtins := by
  cases t <;> decide

theorem integerType_name_ne_void (t : IntegerType) : t.name ≠ "void" := by
  cases t <;> decide

theorem typeOfSize_mem (size : Int) : typeOfSize size ∈ builtins := by
  unfold typeOfSize
  repeat' split
  all_goals decide

theorem typeOfSize_ne_void (size : Int) : typeOfSize size ≠ "void" := by
  unfold typeOfSize
  repeat' split
  all_goals decide

theorem mem_of_lookup {β : Type} {key : String} {value : β} {table : List (String × β)}
    (h : table.lookup key = some value) : (key, value) ∈ table := by
  obtain ⟨before, after, rfl, -⟩ := List.lookup_eq_some_iff.mp h
  exact List.mem_append_right _ (List.mem_cons_self ..)

/-- A primitive becomes a type of the language, and `void` only if it is. -/
theorem meets_primitive (name : String) (size align : Int) :
    Meets s known (primitive s name size align) fun _ u =>
      u.name ∈ builtins ∧ (u.name = "void" ↔ name = "void") := by
  have hplatform : ∀ p ∈ platformPrimitives, p.1 ≠ "void" := by decide
  have hfixed : ∀ p ∈ fixedPrimitives, p.2 ∈ builtins ∧ (p.2 = "void" ↔ p.1 = "void") := by decide
  unfold primitive
  split
  · rename_i integer hinteger
    obtain ⟨isSigned, hlookup, -⟩ := Option.map_eq_some_iff.mp hinteger
    have hname : name ≠ "void" := hplatform _ (mem_of_lookup hlookup)
    have hne := integerType_name_ne_void integer
    exact .pure ⟨integerType_name_mem integer, by simp [hname, hne]⟩
  · dsimp only
    split
    · rename_i type htype
      have hmem := hfixed _ (mem_of_lookup htype)
      split
      · exact (meets_reportOnce rfl).bind fun _ _ _ _ => .pure hmem
      · exact .pure hmem
    · rename_i hnone
      have hname : name ≠ "void" := by
        rintro rfl
        exact absurd hnone (by decide)
      split
      · refine .pure ?_
        show (if size = 2 then "char" else "uint") ∈ builtins ∧
          ((if size = 2 then "char" else "uint") = "void" ↔ name = "void")
        split <;> exact ⟨by decide, by simp [hname]⟩
      · refine (meets_reportOnce rfl).bind fun _ _ _ _ => .pure ⟨typeOfSize_mem size, ?_⟩
        simp [hname, typeOfSize_ne_void]

/-- The placeholder of an ignored type is a type of the language other than `void`. -/
theorem meets_placeholder (closed : Closed s.tree) {name : String} (position : Position)
    (h : s.tree.hasType name = true) :
    Meets s known (placeholder s name position) fun _ u =>
      u.name ∈ builtins ∧ u.name ≠ "void" := by
  refine (meets_reportOnce rfl).bind fun _ _ _ _ => (meets_sizeOf closed h).bind fun _ _ _ _ => ?_
  split <;> exact .pure ⟨by simp [builtins, pointerUse], by simp [pointerUse]⟩

theorem meets_helper {d : Binding.Declaration} (hkind : d.kind = .fixedBuffer)
    (h : ∀ text ∈ d.body.typeNames, Spelled s known text) :
    Meets s known (Outcome.emit (.helper d)) fun names _ => d.name ∈ names := by
  refine .emit ⟨hkind, fun text htext => ?_⟩ ?_
  · exact (h text htext).mono (List.subset_append_left _ _)
  · exact List.mem_append_right _ (List.mem_singleton.mpr rfl)

/-- A fixed buffer is declared under its name, if its count has one. -/
theorem meets_fixedBuffer {element : TypeUse} (label array : String) (count size : Int)
    (h : Spelled s known element.name) :
    Meets s known (match fixedBufferName? label count with
      | none => Outcome.stop (.failed (.fault .countTooLarge))
      | some name => do
        Outcome.emit (.helper
          ⟨name, .fixedBuffer element count size, "FixedBuffer @ " ++ array, some array⟩)
        return name) fun names name => name ∈ names ∧ name ≠ "void" := by
  split
  · exact .failed
  · rename_i name hname
    refine (meets_helper rfl fun text htext => ?_).bind fun _ _ _ hmem =>
      .pure ⟨hmem, fixedBufferName?_ne_void hname⟩
    obtain rfl := List.mem_singleton.mp htext
    exact h

/-- A helper is declared under the name it is used by. -/
theorem meets_arrayHelper {element : TypeUse} (array : String) (count size : Int)
    (h : Spelled s known element.name) :
    Meets s known (arrayHelper array element count size) fun names name =>
      name ∈ names ∧ name ≠ "void" := by
  unfold arrayHelper
  exact meets_fixedBuffer _ array count size h

end

section

/- The rules keep the post-condition if the uses they ask for have it. -/
variable {use : String → Position → Outcome TypeUse} {s : Setting} {known : List String}

theorem meets_backing
    (huse : ∀ {known name} position, s.tree.hasType name = true →
      Meets s known (use name position) (UseOf s name))
    {integerType : String} (values : List (Enumerator String Int))
    (h : s.tree.hasType integerType = true) :
    Meets s known (backing use integerType values) fun names u => Spelled s names u.name := by
  unfold backing
  split
  · exact (huse .value h).mono fun _ _ _ hu => hu.1
  · exact .pure (.of_builtin (integerType_name_mem _))

theorem meets_elementUse (closed : Closed s.tree)
    (huse : ∀ {known name} position, s.tree.hasType name = true →
      Meets s known (use name position) (UseOf s name))
    {name : String} (h : s.tree.hasType name = true) :
    Meets s known (elementUse use s name) fun names u => Spelled s names u.name := by
  refine (huse .field h).bind fun names u _ hu => (meets_node h).bind ?_
  rintro names' node hnames ⟨hnode, -⟩
  have hu' : Spelled s names' u.name := hu.1.mono hnames
  have hrefs := closed node (node?_mem hnode)
  split
  · rename_i integerType values hbody
    rw [hbody] at hrefs
    have htype := hrefs integerType (List.mem_singleton.mpr rfl)
    split
    · refine (meets_backing huse values htype).bind fun names'' narrow hnames' _ => ?_
      split
      · exact (huse .field htype).mono fun _ _ _ hu => hu.1
      · exact .pure (hu'.mono hnames')
    · exact .pure hu'
  · exact .pure hu'

theorem nodeUse_of_structural? {node : Declaration} {position : Position}
    {outcome : Outcome TypeUse} (h : structural? use s node position = some outcome) :
    nodeUse use s node position = outcome := by
  rw [nodeUse, h]

theorem useOf_of_ne_void {name : String} {u : TypeUse} (h : Spelled s known u.name)
    (hne : u.name ≠ "void") (hvoid : ¬ StandsForVoid s name) : UseOf s name known u :=
  ⟨h, by simp [hne, hvoid]⟩

/-- A pointer to what is spelled in order is, too, and is not `void`. -/
theorem useOf_star {name inner : String} (h : Spelled s known inner)
    (hvoid : ¬ StandsForVoid s name) : UseOf s name known (pointerUse s (inner ++ "*")) :=
  useOf_of_ne_void h.star (star_ne_void inner) hvoid

/-- The placeholder of an ignored type is a use of it. -/
theorem meets_ignored (closed : Closed s.tree) {name : String} (position : Position)
    (h : s.tree.hasType name = true) (hignored : s.policy.ignores name = true) :
    Meets s known (placeholder s name position) (UseOf s name) :=
  (meets_placeholder closed position h).mono fun _ _ _ hu =>
    useOf_of_ne_void (.of_builtin hu.1) hu.2 (not_standsForVoid_of_ignored hignored)

theorem meets_primitiveNode (closed : Closed s.tree) {node : Declaration} {size align : Int}
    (position : Position) (hnode : s.tree.node? node.name = some node)
    (hbody : node.body = .primitive size align) :
    Meets s known (nodeUse use s node position) (UseOf s node.name) := by
  have hkind : node.kind = .primitive := by rw [Node.kind, hbody, Body.kind]
  rw [nodeUse_of_structural? (by rw [structural?, hbody])]
  split
  · rename_i hignored
    exact meets_ignored closed position (hasType_iff.mpr ⟨node, hnode, by rw [hkind]; rfl⟩) hignored
  · rename_i hignored
    rw [Bool.not_eq_true] at hignored
    split
    · rename_i target halias
      exact .pure ⟨.of_alias halias, standsForVoid_of_alias hnode (by rw [hkind]; decide)
        (by rw [hkind]; decide) hignored halias⟩
    · rename_i halias
      refine (meets_primitive node.name size align).mono fun _ u _ hu => ⟨.of_builtin hu.1, ?_⟩
      rw [hu.2, standsForVoid_iff hnode hignored halias]
      simp [hkind, hbody]

theorem meets_pointerNode (closed : Closed s.tree)
    (huse : ∀ {known name} position, s.tree.hasType name = true →
      Meets s known (use name position) (UseOf s name))
    {node : Declaration} {pointee : String} {size : Int} (position : Position)
    (hnode : s.tree.node? node.name = some node) (hbody : node.body = .pointer pointee size) :
    Meets s known (nodeUse use s node position) (UseOf s node.name) := by
  have hrefs := closed node (node?_mem hnode)
  rw [hbody] at hrefs
  have hpointee : s.tree.hasType pointee = true := hrefs pointee (List.mem_singleton.mpr rfl)
  have hvoid : ¬ StandsForVoid s node.name :=
    not_standsForVoid_of_kind hnode (.inl (by rw [Node.kind, hbody, Body.kind]))
  rw [nodeUse_of_structural? (by rw [structural?, hbody])]
  split
  · refine (meets_placeholder closed .value hpointee).bind fun names _ _ _ => .pure ?_
    have hinner : Spelled s names "void" := .of_builtin (by decide)
    exact useOf_star hinner hvoid
  · refine (meets_node hpointee).bind fun names target _ _ => ?_
    exact (huse _ hpointee).bind fun names' inner _ hinner => .pure (useOf_star hinner.1 hvoid)

theorem meets_arrayNode (closed : Closed s.tree)
    (huse : ∀ {known name} position, s.tree.hasType name = true →
      Meets s known (use name position) (UseOf s name))
    {node : Declaration} {element : String} {count size : Int} (position : Position)
    (hnode : s.tree.node? node.name = some node) (hbody : node.body = .array element count size) :
    Meets s known (nodeUse use s node position) (UseOf s node.name) := by
  have hrefs := closed node (node?_mem hnode)
  rw [hbody] at hrefs
  have helement : s.tree.hasType element = true := hrefs element (List.mem_singleton.mpr rfl)
  have hvoid : ¬ StandsForVoid s node.name :=
    not_standsForVoid_of_kind hnode (.inr (by rw [Node.kind, hbody, Body.kind]))
  rw [nodeUse_of_structural? (by rw [structural?, hbody])]
  refine (meets_elementUse closed huse helement).bind fun names inner _ hinner => ?_
  cases position with
  | value => exact .pure (useOf_star hinner hvoid)
  | field =>
    dsimp only
    split
    · -- only numbers can be the elements of a fixed buffer
      rename_i hbuffer
      have hne : inner.name ≠ "void" := by
        intro heq
        rw [heq, Bool.and_eq_true] at hbuffer
        exact absurd hbuffer.1 (by decide)
      exact .pure (useOf_of_ne_void hinner hne hvoid)
    · refine (meets_arrayHelper node.name count size hinner).bind fun names' helper _ hhelper => ?_
      exact .pure (useOf_of_ne_void (.of_available (.inl hhelper.1)) hhelper.2 hvoid)

/-- A type with a name of its own is used by that name, which is owed, unless it stands for
`void`. -/
theorem meets_named (closed : Closed s.tree)
    (huse : ∀ {known name} position, s.tree.hasType name = true →
      Meets s known (use name position) (UseOf s name))
    {node : Declaration} (position : Position) (hnode : s.tree.node? node.name = some node)
    (htype : node.kind.isType = true) (hinline : isInline node = false)
    (hignored : s.policy.ignores node.name = false)
    (halias : s.policy.aliasFor? node.name = none) :
    Meets s known (named use s node position) (UseOf s node.name) := by
  have hvoid := standsForVoid_iff hnode hignored halias
  -- the name of the node is available wherever it is owed
  have hown (hnot : ¬ StandsForVoid s node.name) (names : List String) (u : TypeUse)
      (hu : u.name = escape node.name) : UseOf s node.name names u := by
    have howed : Owed s node := ⟨hnode, htype, hinline, hignored, halias, hnot⟩
    exact useOf_of_ne_void (.of_available (.inr ⟨node, howed, hu.symm⟩))
      (hu ▸ escape_ne_void _) hnot
  have hrefs := closed node (node?_mem hnode)
  obtain ⟨name, body, location⟩ := node
  unfold named
  cases body with
  | typedef underlying =>
    have hunderlying := hrefs underlying (List.mem_singleton.mpr rfl)
    refine (huse position hunderlying).bind fun names inner _ hinner => ?_
    split
    · rename_i heq
      refine .pure ⟨hinner.1, iff_of_true heq (hvoid.mpr (.inr ⟨underlying, rfl, ?_⟩))⟩
      exact hinner.2.mp heq
    · rename_i hne
      refine .pure (hown ?_ names _ rfl)
      rw [hvoid]
      rintro (⟨hkind, -⟩ | ⟨_, hbody, hstands⟩)
      · cases hkind
      · cases hbody
        exact hne (hinner.2.mpr hstands)
  | record | functionPointer | incomplete =>
    exact .pure (hown (by rw [hvoid]; simp [Node.kind, Body.kind]) known _ rfl)
  | enumeration integerType values =>
    refine (meets_sizeOf closed (hasType_iff.mpr ⟨_, hnode, htype⟩)).bind fun names size _ _ => ?_
    exact .pure (hown (by rw [hvoid]; simp [Node.kind, Body.kind]) names _ rfl)
  | primitive | pointer | array | enumerator => cases hinline
  | function | global | constant => cases htype

/-- The rule for any node that is a type. -/
theorem meets_nodeUse (closed : Closed s.tree)
    (huse : ∀ {known name} position, s.tree.hasType name = true →
      Meets s known (use name position) (UseOf s name))
    {node : Declaration} (position : Position) (hnode : s.tree.node? node.name = some node)
    (htype : node.kind.isType = true) :
    Meets s known (nodeUse use s node position) (UseOf s node.name) := by
  cases hinline : isInline node with
  | true =>
    cases hbody : node.body with
    | primitive size align => exact meets_primitiveNode closed position hnode hbody
    | pointer pointee size => exact meets_pointerNode closed huse position hnode hbody
    | array element count size => exact meets_arrayNode closed huse position hnode hbody
    | _ => simp_all [isInline, Node.kind, Body.kind, Kind.isType]
  | false =>
    have hnone : structural? use s node position = none := by
      unfold structural?
      cases hbody : node.body <;> simp_all [isInline, Node.kind, Body.kind]
    have hkind : node.kind ≠ .pointer ∧ node.kind ≠ .array := by
      constructor <;> intro hkind <;> simp [isInline, hkind] at hinline
    have hhas := hasType_iff.mpr ⟨node, hnode, htype⟩
    rw [nodeUse, hnone]
    dsimp only
    split
    · rename_i hignored
      exact meets_ignored closed position hhas hignored
    · rename_i hignored
      rw [Bool.not_eq_true] at hignored
      split
      · rename_i target halias
        refine (meets_sizeOf closed hhas).bind fun _ _ _ _ => .pure ⟨.of_alias halias, ?_⟩
        exact standsForVoid_of_alias hnode hkind.1 hkind.2 hignored halias
      · rename_i halias
        exact meets_named closed huse position hnode htype hinline hignored halias

end

/-- Every use of a type is in order, however many references may be followed. -/
theorem meets_useWithin {s : Setting} (closed : Closed s.tree) (steps : Nat) :
    ∀ {known : List String} {name : String} (position : Position), s.tree.hasType name = true →
      Meets s known (useWithin s steps name position) (UseOf s name) := by
  induction steps with
  | zero => exact fun _ _ => .failed
  | succ steps ih =>
    intro known name position h
    refine (meets_node h).bind fun names node _ hnode => ?_
    obtain rfl := node?_name hnode.1
    exact meets_nodeUse closed (fun position h => ih position h) position hnode.1 hnode.2

theorem meets_typeUse {s : Setting} (closed : Closed s.tree) {known : List String} {name : String}
    (position : Position) (h : s.tree.hasType name = true) :
    Meets s known (typeUse s name position) (UseOf s name) :=
  meets_useWithin closed _ position h

end CInterop.Mapping
