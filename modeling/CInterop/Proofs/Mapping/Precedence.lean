import CInterop.Proofs.Mapping.Shadowed
import CInterop.Proofs.Mapping.TypeUse

/-!
# Ignoring takes precedence over replacing

An ignored type leaves a stub behind wherever it is used, through however many typedefs, pointers and
arrays, and whatever alias it has. This is stated by a relation between types and their uses, in which a
stub is all that an ignored type can be used as.
-/

namespace CInterop.Mapping

open Header
open Binding (TypeUse escape fixedBufferName?)

/-! ## What stands for an ignored type -/

/-- What an ignored type of that size leaves behind: its bytes in a field, a pointer elsewhere. -/
def stub (s : Setting) (size : Int) : Position → TypeUse
  | .field => if 0 < size then ⟨"byte", size, 1, some size⟩ else pointerUse s "IntPtr"
  | .value => pointerUse s "IntPtr"

theorem placeholder_result (s : Setting) (name : String) (position : Position) :
    (placeholder s name position).result = (s.sizeOf name).map (stub s · position) := by
  unfold placeholder
  cases s.sizeOf name with
  | error reason => rfl
  | ok size =>
    show Except.ok (if position = .field && 0 < size then _ else _) = _
    cases position with
    | value => rfl
    | field =>
      simp only [decide_true, Bool.true_and, decide_eq_true_eq]
      rfl

mutual

/-- The type of that name is used as `u`. A name of its own, a type of the language and an alias are
only for what is not ignored. -/
inductive UsedAs (s : Setting) : String → Position → TypeUse → Prop
  | stub {name : String} {position : Position} {node : Declaration} {size : Int} :
      s.tree.node? name = some node → node.kind ≠ .pointer → node.kind ≠ .array →
      s.policy.ignores name = true → s.sizeOf name = .ok size →
      UsedAs s name position (stub s size position)
  | replaced {name : String} {position : Position} {node : Declaration} {u : TypeUse} :
      s.tree.node? name = some node → node.kind ≠ .pointer → node.kind ≠ .array →
      s.policy.ignores name = false → s.policy.aliasFor? name = some u.name →
      UsedAs s name position u
  | builtin {name : String} {position : Position} {node : Declaration} {u : TypeUse} :
      s.tree.node? name = some node → node.kind = .primitive →
      s.policy.ignores name = false → s.policy.aliasFor? name = none → u.name ∈ builtins →
      UsedAs s name position u
  | own {name : String} {position : Position} {node : Declaration} {u : TypeUse} :
      s.tree.node? name = some node → isInline node = false →
      s.policy.ignores name = false → s.policy.aliasFor? name = none → u.name = escape name →
      UsedAs s name position u
  /-- A typedef of what is spelled `void` is not used by its own name. -/
  | void {name underlying : String} {position : Position} {node : Declaration} {u : TypeUse} :
      s.tree.node? name = some node → node.body = .typedef underlying →
      s.policy.ignores name = false → s.policy.aliasFor? name = none →
      UsedAs s underlying position u → u.name = "void" → UsedAs s name position u
  | pointerToIgnored {name pointee : String} {position : Position} {node : Declaration}
      {size : Int} :
      s.tree.node? name = some node → node.body = .pointer pointee size →
      s.policy.ignores pointee = true → UsedAs s name position (pointerUse s "void*")
  | pointer {name pointee : String} {position inside : Position} {node : Declaration} {size : Int}
      {u : TypeUse} :
      s.tree.node? name = some node → node.body = .pointer pointee size →
      s.policy.ignores pointee = false → UsedAs s pointee inside u →
      UsedAs s name position (pointerUse s (u.name ++ "*"))
  | decayed {name element : String} {node : Declaration} {count size : Int} {u : TypeUse} :
      s.tree.node? name = some node → node.body = .array element count size →
      ElementUsedAs s element u → UsedAs s name .value (pointerUse s (u.name ++ "*"))
  | buffer {name element : String} {node : Declaration} {count size : Int} {u : TypeUse} :
      s.tree.node? name = some node → node.body = .array element count size →
      ElementUsedAs s element u → UsedAs s name .field ⟨u.name, size, u.align, some count⟩
  | helper {name element label text : String} {node : Declaration} {count size : Int} {u : TypeUse} :
      s.tree.node? name = some node → node.body = .array element count size →
      ElementUsedAs s element u → (label = u.name ∨ ∃ inner : Int, label = u.name ++ toString inner) →
      fixedBufferName? label count = some text → UsedAs s name .field ⟨text, size, u.align, none⟩

/-- The elements of an array are used as `u`. -/
inductive ElementUsedAs (s : Setting) : String → TypeUse → Prop
  | plain {name : String} {u : TypeUse} : UsedAs s name .field u → ElementUsedAs s name u
  /-- An enumeration that is not ignored may be replaced by its integer type. -/
  | widened {name integerType : String} {node : Declaration} {values : List (Enumerator String Int)}
      {u : TypeUse} :
      s.tree.node? name = some node → node.body = .enumeration integerType values →
      s.policy.ignores name = false → UsedAs s integerType .field u → ElementUsedAs s name u

end

/-- No ignored enumeration without a size is called like the stub that stands for it. -/
def StubsDistinct (s : Setting) : Prop :=
  ∀ node size, s.tree.node? "IntPtr" = some node → node.kind = .enumeration →
    s.policy.ignores "IntPtr" = true → s.sizeOf "IntPtr" = .ok size → 0 < size

section

variable {use : String → Position → Outcome TypeUse} {s : Setting} {node : Declaration}
  {position : Position} {u : TypeUse}

/-- An ignored type with a name of its own has no use but the stub. -/
theorem UsedAs.eq_stub {name : String} (h : UsedAs s name position u)
    (hnode : s.tree.node? name = some node) (hpointer : node.kind ≠ .pointer)
    (harray : node.kind ≠ .array) (hignored : s.policy.ignores name = true) :
    ∃ size, s.sizeOf name = .ok size ∧ u = Mapping.stub s size position := by
  have hkind : node.kind = node.body.kind := rfl
  cases h with
  | stub _ _ _ _ hsize => exact ⟨_, hsize, rfl⟩
  | replaced _ _ _ hnot | builtin _ _ hnot | own _ _ hnot | void _ _ hnot =>
    rw [hignored] at hnot
    cases hnot
  | pointerToIgnored hnode' hbody | pointer hnode' hbody =>
    cases hnode.symm.trans hnode'
    rw [hbody] at hkind
    exact absurd hkind hpointer
  | decayed hnode' hbody | buffer hnode' hbody | helper hnode' hbody =>
    cases hnode.symm.trans hnode'
    rw [hbody] at hkind
    exact absurd hkind harray

theorem escape_ne_byte (name : String) : escape name ≠ "byte" := by
  unfold escape
  split
  · intro h
    have hhead := congrArg (·.toList.head?) h
    simp at hhead
  · rintro rfl
    rename_i hkeyword
    exact hkeyword (by decide)

theorem escape_eq_intPtr {name : String} (h : escape name = "IntPtr") : name = "IntPtr" := by
  unfold escape at h
  split at h
  · have hhead := congrArg (·.toList.head?) h
    simp at hhead
  · exact h

/-- The stub of an enumeration is not taken for the enumeration itself. -/
theorem stub_name_ne {size : Int} (distinct : StubsDistinct s)
    (hnode : s.tree.node? node.name = some node) (hkind : node.kind = .enumeration)
    (hignored : s.policy.ignores node.name = true) (hsize : s.sizeOf node.name = .ok size) :
    (stub s size .field).name ≠ escape node.name := by
  show (if 0 < size then _ else _ : TypeUse).name ≠ _
  split
  · exact (escape_ne_byte node.name).symm
  · rename_i hnot
    intro hname
    have hcalled := escape_eq_intPtr hname.symm
    rw [hcalled] at hnode hignored hsize
    exact hnot (distinct node size hnode hkind hignored hsize)

theorem usedAs_of_placeholder {name : String} (hnode : s.tree.node? name = some node)
    (hpointer : node.kind ≠ .pointer) (harray : node.kind ≠ .array)
    (hignored : s.policy.ignores name = true)
    (h : (placeholder s name position).result = .ok u) : UsedAs s name position u := by
  rw [placeholder_result] at h
  cases hsize : s.sizeOf name with
  | error reason =>
    rw [hsize] at h
    cases h
  | ok size =>
    rw [hsize] at h
    cases h
    exact .stub hnode hpointer harray hignored hsize

/-! ### The rules for one node -/

theorem elementUsedAs_elementUse (distinct : StubsDistinct s)
    (huse : ∀ {name position u}, (use name position).result = .ok u → UsedAs s name position u)
    {name : String} (h : (elementUse use s name).result = .ok u) : ElementUsedAs s name u := by
  obtain ⟨element, helement, hrest, -⟩ := Outcome.bind_eq_ok h
  obtain ⟨node, hfound, hrest, -⟩ := Outcome.bind_eq_ok hrest
  have hnode := node_eq_ok hfound
  have hplain : ElementUsedAs s name element := .plain (huse helement)
  split at hrest
  · rename_i integerType values hbody
    split at hrest
    · rename_i hname
      obtain ⟨narrow, -, hrest, -⟩ := Outcome.bind_eq_ok hrest
      split at hrest
      · -- the element is the enumeration itself, so that it is not ignored
        refine .widened hnode hbody ?_ (huse hrest)
        by_contra hignored
        rw [Bool.not_eq_false] at hignored
        obtain rfl := node?_name hnode
        have hkind : node.kind = .enumeration := by rw [Node.kind, hbody, Body.kind]
        obtain ⟨size, hsize, rfl⟩ := (huse helement).eq_stub hnode (by rw [hkind]; decide)
          (by rw [hkind]; decide) hignored
        exact stub_name_ne distinct hnode hkind hignored hsize hname
      · cases hrest
        exact hplain
    · cases hrest
      exact hplain
  · cases hrest
    exact hplain

theorem usedAs_primitiveNode {size align : Int} (hnode : s.tree.node? node.name = some node)
    (hbody : node.body = .primitive size align)
    (h : (nodeUse use s node position).result = .ok u) : UsedAs s node.name position u := by
  have hkind : node.kind = .primitive := by rw [Node.kind, hbody, Body.kind]
  rw [nodeUse_of_structural? (by rw [structural?, hbody])] at h
  split at h
  · rename_i hignored
    exact usedAs_of_placeholder hnode (by rw [hkind]; decide) (by rw [hkind]; decide) hignored h
  · rename_i hignored
    rw [Bool.not_eq_true] at hignored
    split at h
    · rename_i target halias
      cases h
      exact .replaced hnode (by rw [hkind]; decide) (by rw [hkind]; decide) hignored halias
    · rename_i halias
      have hmeets : Meets s [] (primitive s node.name size align) fun _ u =>
          u.name ∈ builtins ∧ (u.name = "void" ↔ node.name = "void") :=
        meets_primitive node.name size align
      exact .builtin hnode hkind hignored halias (hmeets.result u h).1

theorem usedAs_pointerNode
    (huse : ∀ {name position u}, (use name position).result = .ok u → UsedAs s name position u)
    {pointee : String} {size : Int} (hnode : s.tree.node? node.name = some node)
    (hbody : node.body = .pointer pointee size)
    (h : (nodeUse use s node position).result = .ok u) : UsedAs s node.name position u := by
  rw [nodeUse_of_structural? (by rw [structural?, hbody])] at h
  split at h
  · rename_i hignored
    obtain ⟨_, -, hrest, -⟩ := Outcome.bind_eq_ok h
    cases hrest
    exact .pointerToIgnored hnode hbody hignored
  · rename_i hignored
    obtain ⟨target, -, hrest, -⟩ := Outcome.bind_eq_ok h
    obtain ⟨inner, hinner, hrest, -⟩ := Outcome.bind_eq_ok hrest
    cases hrest
    exact .pointer hnode hbody (Bool.not_eq_true _ ▸ hignored) (huse hinner)

/-- The name of a helper is made from the spelling of its elements, with their number if they are
buffers themselves. -/
theorem arrayHelper_eq_ok {array text : String} {element : TypeUse} {count size : Int}
    (h : (arrayHelper array element count size).result = .ok text) :
    ∃ label, (label = element.name ∨ ∃ inner : Int, label = element.name ++ toString inner) ∧
      fixedBufferName? label count = some text := by
  unfold arrayHelper at h
  dsimp only at h
  split at h
  · cases h
  · rename_i name hname
    cases h
    refine ⟨_, ?_, hname⟩
    split
    · exact .inr ⟨_, rfl⟩
    · exact .inl rfl

theorem usedAs_arrayNode (distinct : StubsDistinct s)
    (huse : ∀ {name position u}, (use name position).result = .ok u → UsedAs s name position u)
    {element : String} {count size : Int} (hnode : s.tree.node? node.name = some node)
    (hbody : node.body = .array element count size)
    (h : (nodeUse use s node position).result = .ok u) : UsedAs s node.name position u := by
  rw [nodeUse_of_structural? (by rw [structural?, hbody])] at h
  obtain ⟨inner, hinner, hrest, -⟩ := Outcome.bind_eq_ok h
  have helement := elementUsedAs_elementUse distinct huse hinner
  cases position with
  | value =>
    cases hrest
    exact .decayed hnode hbody helement
  | field =>
    dsimp only at hrest
    split at hrest
    · cases hrest
      exact .buffer hnode hbody helement
    · obtain ⟨text, htext, hrest, -⟩ := Outcome.bind_eq_ok hrest
      cases hrest
      obtain ⟨label, hlabel, hname⟩ := arrayHelper_eq_ok htext
      exact .helper hnode hbody helement hlabel hname

theorem usedAs_named
    (huse : ∀ {name position u}, (use name position).result = .ok u → UsedAs s name position u)
    (hnode : s.tree.node? node.name = some node) (hignored : s.policy.ignores node.name = false)
    (halias : s.policy.aliasFor? node.name = none)
    (h : (named use s node position).result = .ok u) : UsedAs s node.name position u := by
  have hown (hinline : isInline node = false) (hname : u.name = escape node.name) :
      UsedAs s node.name position u := .own hnode hinline hignored halias hname
  rw [isInline, Node.kind] at hown
  unfold named at h
  cases hbody : node.body <;> rw [hbody] at h hown
  case typedef underlying =>
    obtain ⟨inner, hinner, hrest, -⟩ := Outcome.bind_eq_ok h
    split at hrest
    · rename_i hvoid
      cases hrest
      exact .void hnode hbody hignored halias (huse hinner) hvoid
    · cases hrest
      exact hown rfl rfl
  case enumeration integerType values =>
    obtain ⟨size, -, hrest, -⟩ := Outcome.bind_eq_ok h
    cases hrest
    exact hown rfl rfl
  case record | functionPointer | incomplete =>
    cases h
    exact hown rfl rfl
  all_goals cases h

theorem usedAs_unstructured
    (huse : ∀ {name position u}, (use name position).result = .ok u → UsedAs s name position u)
    (hnode : s.tree.node? node.name = some node) (hpointer : node.kind ≠ .pointer)
    (harray : node.kind ≠ .array) (hnone : structural? use s node position = none)
    (h : (nodeUse use s node position).result = .ok u) : UsedAs s node.name position u := by
  rw [nodeUse, hnone] at h
  dsimp only at h
  split at h
  · rename_i hignored
    exact usedAs_of_placeholder hnode hpointer harray hignored h
  · rename_i hignored
    rw [Bool.not_eq_true] at hignored
    split at h
    · rename_i target halias
      obtain ⟨size, -, hrest, -⟩ := Outcome.bind_eq_ok h
      cases hrest
      exact .replaced hnode hpointer harray hignored halias
    · rename_i halias
      exact usedAs_named huse hnode hignored halias h

/-- The rule for any node. -/
theorem usedAs_nodeUse (distinct : StubsDistinct s)
    (huse : ∀ {name position u}, (use name position).result = .ok u → UsedAs s name position u)
    (hnode : s.tree.node? node.name = some node)
    (h : (nodeUse use s node position).result = .ok u) : UsedAs s node.name position u := by
  have hkind : node.kind = node.body.kind := rfl
  cases hbody : node.body with
  | primitive size align => exact usedAs_primitiveNode hnode hbody h
  | pointer pointee size => exact usedAs_pointerNode huse hnode hbody h
  | array element count size => exact usedAs_arrayNode distinct huse hnode hbody h
  | _ =>
    rw [hbody] at hkind
    refine usedAs_unstructured huse hnode (fun h => ?_) (fun h => ?_) (by rw [structural?, hbody]) h
    · cases hkind.symm.trans h
    · cases hkind.symm.trans h

end

theorem usedAs_useWithin {s : Setting} (distinct : StubsDistinct s) (steps : Nat) :
    ∀ {name : String} {position : Position} {u : TypeUse},
      (useWithin s steps name position).result = .ok u → UsedAs s name position u := by
  induction steps with
  | zero => exact fun h => by cases h
  | succ steps ih =>
    intro name position u h
    obtain ⟨node, hfound, hrest, -⟩ := Outcome.bind_eq_ok h
    have hnode := node_eq_ok hfound
    obtain rfl := node?_name hnode
    exact usedAs_nodeUse distinct ih hnode hrest

/-- In a use of any type, ignored types are stubs. -/
theorem usedAs_typeUse {s : Setting} (distinct : StubsDistinct s) {name : String}
    {position : Position} {u : TypeUse} (h : (typeUse s name position).result = .ok u) :
    UsedAs s name position u :=
  usedAs_useWithin distinct _ h

/-- A use is that of the node of the name. -/
theorem typeUse_of_node? {s : Setting} {name : String} {node : Declaration}
    (hnode : s.tree.node? name = some node) (position : Position) :
    typeUse s name position = nodeUse (useWithin s s.tree.nodes.length) s node position := by
  have hfound : s.node name = .ok node := by rw [Setting.node, hnode]
  show (Outcome.ofExcept (s.node name) >>= fun node => nodeUse _ s node position) = _
  rw [hfound, Outcome.ofExcept, Outcome.bind_ok]
  rfl

/-- The rule for an ignored node that is spelled by a name of its own. -/
theorem nodeUse_of_ignored {use : String → Position → Outcome TypeUse} {s : Setting}
    {node : Declaration} {position : Position} (hpointer : node.kind ≠ .pointer)
    (harray : node.kind ≠ .array) (hignored : s.policy.ignores node.name = true) :
    nodeUse use s node position = placeholder s node.name position := by
  have hkind : node.kind = node.body.kind := rfl
  cases hbody : node.body <;> rw [hbody] at hkind
  case pointer => exact absurd hkind hpointer
  case array => exact absurd hkind harray
  all_goals rw [nodeUse, structural?, hbody]; simp only [hignored, if_true]

/-- An ignored type that is spelled by a name of its own is used as its stub. -/
theorem typeUse_of_ignored {s : Setting} {name : String} {node : Declaration}
    (hnode : s.tree.node? name = some node) (hpointer : node.kind ≠ .pointer)
    (harray : node.kind ≠ .array) (hignored : s.policy.ignores name = true) (position : Position) :
    (typeUse s name position).result = (s.sizeOf name).map (stub s · position) := by
  obtain rfl := node?_name hnode
  rw [typeUse_of_node? hnode, nodeUse_of_ignored hpointer harray hignored, placeholder_result]

/-- Nothing can be said of what a pointer to an ignored type points to. -/
theorem typeUse_of_ignored_pointee {s : Setting} {name pointee : String} {node : Declaration}
    {size : Int} (hnode : s.tree.node? name = some node) (hbody : node.body = .pointer pointee size)
    (hignored : s.policy.ignores pointee = true) (position : Position) :
    (typeUse s name position).result = (s.sizeOf pointee).map fun _ => pointerUse s "void*" := by
  have hplaceholder := placeholder_result s pointee .value
  rw [typeUse_of_node? hnode, nodeUse_of_structural? (by rw [structural?, hbody]), if_pos hignored]
  cases hresult : s.sizeOf pointee with
  | error reason =>
    rw [hresult] at hplaceholder
    generalize placeholder s pointee .value = outcome at hplaceholder
    obtain ⟨events, result⟩ := outcome
    cases hplaceholder
    rfl
  | ok measured =>
    rw [hresult] at hplaceholder
    exact Outcome.result_bind_of_ok hplaceholder

/-! ## The whole tree -/

/-- Ignoring takes precedence over replacing. Without the aliases of ignored types a run makes the same
binding and the same reports, except that two rules are about one node. An ignored type that is
spelled by a name of its own is declared nowhere and used as its stub, and a pointer to an ignored
type is one to anything. In the use of any other type it is a stub as well, unless an enumeration is
called like the stub and cannot be told from it as the element of an array. -/
theorem ignored_over_replaced (s : Setting) :
    run s.withoutShadowed =
      ⟨(run s).bindings, (run s).diagnostics.filter (!·.isClash), (run s).details⟩ ∧
    typeUse s.withoutShadowed = typeUse s ∧
    (∀ b name, (run s).bindings = .ok b → s.policy.ignores name = true →
      (∀ node ∈ s.tree.nodes, node.name = name → node.kind ≠ .pointer ∧ node.kind ≠ .array) →
      ∀ d ∈ b.declarations, d.origin ≠ some name) ∧
    (∀ name node, s.tree.node? name = some node → node.kind ≠ .pointer → node.kind ≠ .array →
      s.policy.ignores name = true →
      ∀ position, (typeUse s name position).result = (s.sizeOf name).map (stub s · position)) ∧
    (∀ name node pointee size, s.tree.node? name = some node → node.body = .pointer pointee size →
      s.policy.ignores pointee = true →
      ∀ position, (typeUse s name position).result =
        (s.sizeOf pointee).map fun _ => pointerUse s "void*") ∧
    (StubsDistinct s → ∀ name position u, (typeUse s name position).result = .ok u →
      UsedAs s name position u) := by
  refine ⟨run_withoutShadowed_eq s, s.agrees_withoutShadowed.typeUse, ?_, ?_, ?_, ?_⟩
  · intro b name hrun hignored hkind
    exact origin_ne_of_ignored hrun hignored hkind
  · intro name node hnode hpointer harray hignored position
    exact typeUse_of_ignored hnode hpointer harray hignored position
  · intro name node pointee size hnode hbody hignored position
    exact typeUse_of_ignored_pointee hnode hbody hignored position
  · intro distinct name position u h
    exact usedAs_typeUse distinct h

/-- A record that is both ignored and replaced, used by itself, behind a pointer and in an array. -/
def vault : Setting where
  tree := ⟨"vault.h", 64, [
    ⟨"int", .primitive 4 4, none⟩,
    ⟨"secret", .record false [⟨"key", "int", 0, 4⟩] 4 4, none⟩,
    ⟨"secret*", .pointer "secret" 8, none⟩,
    ⟨"secret[2]", .array "secret" 2 8, none⟩,
    ⟨"box", .record false [⟨"first", "secret", 0, 4⟩, ⟨"others", "secret[2]", 4, 8⟩] 12 4, none⟩,
    ⟨"open", .function "secret" [⟨"key", "secret*"⟩] false "cdecl", none⟩]⟩
  policy := ⟨"Vault", [⟨"secret", "System.Guid"⟩], ["secret"], none⟩

theorem ignored_over_replaced_vault :
    vault.policy.ignores "secret" = true ∧ vault.policy.aliasFor? "secret" = some "System.Guid" ∧
    (run vault.withoutShadowed).bindings = (run vault).bindings ∧
    (run vault).diagnostics.filter (·.isClash) =
      [⟨.unmappable "secret" clash, some ""⟩] ∧
    (∃ b, (run vault).bindings = .ok b ∧
      b.declarations.map (·.name) = ["FixedBuffer_Byte4_two", "box", "open"] ∧
      ∀ d ∈ b.declarations, d.origin ≠ some "secret") ∧
    (typeUse vault "secret" .field).result = .ok ⟨"byte", 4, 1, some 4⟩ ∧
    (typeUse vault "secret*" .value).result = .ok ⟨"void*", 8, 8, none⟩ ∧
    StubsDistinct vault ∧
    UsedAs vault "secret[2]" .field ⟨"FixedBuffer_Byte4_two", 8, 1, none⟩ := by
  have hdistinct : StubsDistinct vault := by
    intro node size hnode
    cases hnode
  obtain ⟨hrun, -, horigin, hstub, hpointer, hused⟩ := ignored_over_replaced vault
  have hnames : (run vault).bindings.toOption.map (·.declarations.map (·.name)) =
      some ["FixedBuffer_Byte4_two", "box", "open"] := by decide +kernel
  have hsecret : vault.policy.ignores "secret" = true := by decide
  refine ⟨hsecret, by decide, by rw [hrun], by decide +kernel, ?_, ?_, ?_, hdistinct, ?_⟩
  · cases h : (run vault).bindings with
    | error failure =>
      rw [h] at hnames
      cases hnames
    | ok b =>
      rw [h] at hnames
      exact ⟨b, rfl, Option.some.inj hnames, horigin b "secret" h hsecret (by decide)⟩
  · rw [hstub "secret" ⟨"secret", .record false [⟨"key", "int", 0, 4⟩] 4 4, none⟩ (by decide)
      (by decide) (by decide) hsecret .field]
    decide
  · rw [hpointer "secret*" ⟨"secret*", .pointer "secret" 8, none⟩ "secret" 8 (by decide) rfl hsecret
      .value]
    decide
  · exact hused hdistinct "secret[2]" .field _ (by decide +kernel)

/-- Where an ignored enumeration without a size is called like the stub, its arrays hold the integer type
of the enumeration instead. -/
example :
    let s : Setting := ⟨⟨"a.h", 64, [⟨"void", .primitive 0 0, none⟩,
      ⟨"IntPtr", .enumeration "void" [⟨"A", 0, none⟩], none⟩,
      ⟨"IntPtr[3]", .array "IntPtr" 3 24, none⟩]⟩, ⟨"Namesake", [], ["IntPtr"], none⟩⟩
    (typeUse s "IntPtr" .field).result.toOption = some ⟨"IntPtr", 8, 8, none⟩ ∧
      (typeUse s "IntPtr[3]" .field).result.toOption = some ⟨"FixedBuffer_Void_three", 24, 0, none⟩ := by
  decide +kernel

end CInterop.Mapping
