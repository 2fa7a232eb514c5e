import CInterop.Binding.Source
import CInterop.Document.Printer
import CInterop.Document.Reader
import CInterop.Mapping
import CInterop.Proofs.Header.Leaves
import CInterop.Proofs.Json.RoundTrip

/-!
# Written documents are read back

The reader of documents inverts the writer: kind by kind on document values, and with the JSON layer
below on texts. The JSON layer converts no integer of more than 4300 digits, which is the only reason
why a written tree cannot be read.
-/

namespace CInterop.Document

open Header Json

/-! ## Document values -/

theorem member_obj {key : String} {members : List (String × Json)} {item : Json}
    (h : lookup key members = some item) : member (.obj members) key = .ok item := by
  simp only [member, Json.member, h]
  rfl

theorem location_ofLocation (l : Option (Location Json Json)) {members : List (String × Json)}
    (h : lookup "location" members = some (ofLocation l)) : location (.obj members) = .ok l := by
  have hoptional : optional (.obj members) "location" = .ok (some (ofLocation l)) := by
    rw [optional, h]
  rw [location, hoptional]
  cases l with
  | none => rfl
  | some l => rfl

theorem parameter_written (p : Parameter Json) :
    parameter (.obj [("name", p.name), ("type", p.type)]) = .ok p := rfl

theorem field_ofField (x : Field Json Json) : field (ofField x) = .ok x := rfl

theorem parameters_ofParameters (ps : List (Parameter Json)) {members : List (String × Json)}
    (h : lookup "parameters" members = some (ofParameters ps)) :
    parameters (.obj members) = .ok ps := by
  unfold parameters memberElements
  rw [member_obj h]
  exact mapM_map_pure parameter_written ps

theorem kind_of_ofShown {v : Json} {k : Kind} (h : member v "kind" >>= ofShown = .ok k) :
    kind v = .ok k := by
  rw [kind, h]

theorem kind_ofParts (k : Kind) (name : Json) (own : List (String × Json))
    (l : Option (Location Json Json)) : kind (ofParts k name own l) = .ok k := by
  have hkind : member (ofParts k name own l) "kind" = .ok (.str k.name) := rfl
  refine kind_of_ofShown ?_
  rw [hkind]
  show ofShown (.str k.name) = _
  rw [ofShown, Kind.ofName?_name]
  rfl

/-- The body of a node other than an enumeration is read back. -/
theorem plainBody_ofNode (n : Node Json Json Json) (h : n.kind ≠ .enumeration) :
    plainBody (ofNode n) n.kind = .ok n.body := by
  obtain ⟨name, body, l⟩ := n
  cases body with
  | functionPointer result ps size =>
    have hps : parameters (ofNode ⟨name, .functionPointer result ps size, l⟩) = .ok ps :=
      parameters_ofParameters ps rfl
    simp only [plainBody, Node.kind, Body.kind, hps]
    rfl
  | function result ps isVariadic convention =>
    have hps : parameters (ofNode ⟨name, .function result ps isVariadic convention, l⟩) = .ok ps :=
      parameters_ofParameters ps rfl
    simp only [plainBody, Node.kind, Body.kind, hps]
    rfl
  | record isUnion fields size align =>
    have hfields : (fields.map ofField).mapM field = .ok fields := mapM_map_pure field_ofField fields
    have hmember : memberElements (ofNode ⟨name, .record isUnion fields size align, l⟩) "fields"
        = .ok (fields.map ofField) := rfl
    simp only [plainBody, Node.kind, Body.kind, hmember]
    show (do let fields ← (fields.map ofField).mapM field; _) = _
    rw [hfields]
    rfl
  | enumeration => exact absurd rfl h
  | _ => rfl

/-- How a node other than an enumeration is read. -/
theorem node_obj {members : List (String × Json)} {k : Kind} {name : Json}
    {l : Option (Location Json Json)} (hkind : kind (.obj members) = .ok k)
    (hname : member (.obj members) "name" = .ok name) (hlocation : location (.obj members) = .ok l)
    (hne : k ≠ .enumeration) :
    node (.obj members) = do return ⟨name, ← plainBody (.obj members) k, l⟩ := by
  rw [node, hkind, hname, hlocation]
  cases k with
  | enumeration => exact absurd rfl hne
  | _ => rfl

theorem location_ofNode (n : Node Json Json Json) : location (ofNode n) = .ok n.location := by
  refine location_ofLocation n.location ?_
  obtain ⟨name, body, l⟩ := n
  cases body <;> rfl

/-- A node other than an enumeration is read back. -/
theorem node_ofNode_of_ne (n : Node Json Json Json) (h : n.kind ≠ .enumeration) :
    node (ofNode n) = .ok n := by
  have hkind : kind (ofNode n) = .ok n.kind := kind_ofParts _ _ _ _
  have hname : member (ofNode n) "name" = .ok n.name := rfl
  have hbody := plainBody_ofNode n h
  refine (node_obj hkind hname (location_ofNode n) h).trans ?_
  show (do return ⟨n.name, ← plainBody (ofNode n) n.kind, n.location⟩ : Reading RawNode) = _
  rw [hbody]
  rfl

/-- The values of an enumeration are read back. -/
theorem enumerators_ofEnumerator (enumeration : Json) (values : List (Enumerator Json Json)) :
    enumerators enumeration (values.map ofEnumerator) = .ok values := by
  induction values with
  | nil => rfl
  | cons v values ih =>
    have hv : node (ofEnumerator v) = .ok ⟨v.name, .enumerator v.value, v.location⟩ :=
      node_ofNode_of_ne ⟨v.name, .enumerator v.value, v.location⟩ nofun
    rw [List.map_cons, enumerators, hv, ih]
    rfl

/-- Every node is read back. -/
theorem node_ofNode (n : Node Json Json Json) : node (ofNode n) = .ok n := by
  by_cases h : n.kind = .enumeration
  · have hkind : kind (ofNode n) = .ok n.kind := kind_ofParts _ _ _ _
    have hlocation := location_ofNode n
    obtain ⟨name, body, l⟩ := n
    cases body with
    | enumeration integerType values =>
      have hvalues := enumerators_ofEnumerator name values
      rw [ofNode, ofParts] at *
      rw [node, hkind, hlocation]
      show (do
        let values ← enumerators name (values.map ofEnumerator)
        return ⟨name, .enumeration integerType values, l⟩ : Reading RawNode) = _
      rw [hvalues]
      rfl
    | _ => contradiction
  · exact node_ofNode_of_ne n h

/-! ## Trees -/

/-- Texts are the same as names if they are equal. -/
theorem sameName_str (a b : String) : sameName (.str a) (.str b) = (a == b) := rfl

theorem checkNames_of_nodup (before : List String) (nodes : List Declaration)
    (h : (nodes.map (·.name)).Nodup) (hbefore : ∀ n ∈ nodes, n.name ∉ before) :
    checkNames (before.map .str) (nodes.map (·.map .str .int .bool)) = .ok () := by
  induction nodes generalizing before with
  | nil => rfl
  | cons n nodes ih =>
    rw [List.map_cons, List.nodup_cons] at h
    have hnew : (before.map Json.str).any (·.sameName (.str n.name)) = false := by
      rw [List.any_eq_false]
      intro v hv
      obtain ⟨name, hname, rfl⟩ := List.mem_map.1 hv
      rw [sameName_str, beq_iff_eq]
      rintro rfl
      exact hbefore n (by simp) hname
    -- the names behind differ from those before and from this one
    have hrest := ih (n.name :: before) h.2 fun m hm => by
      rw [List.mem_cons, not_or]
      refine ⟨?_, hbefore m (by simp [hm])⟩
      rintro hname
      exact h.1 (hname ▸ List.mem_map_of_mem hm)
    rw [List.map_cons, checkNames]
    show (if (before.map Json.str).any (·.sameName (.str n.name)) then _ else _) = _
    rw [hnew]
    exact hrest

/-- The document value of a tree that passes the checks is read as the tree. -/
theorem document_ofTree {t : RawTree} (hbitness : checkBitness t.bitness = .ok ())
    (hnames : checkNames [] t.nodes = .ok ()) : document (ofTree t) = .ok t := by
  have hnodes : (t.nodes.map ofNode).mapM node = .ok t.nodes := mapM_map_pure node_ofNode _
  have htree : tree (ofTree t) = .ok t := by
    show (do
      let nodes ← (t.nodes.map ofNode).mapM node
      checkBitness t.bitness
      checkNames [] nodes
      return ⟨t.file, t.bitness, nodes⟩ : Reading RawTree) = _
    rw [hnodes]
    show (do
      checkBitness t.bitness
      checkNames [] t.nodes
      return ⟨t.file, t.bitness, t.nodes⟩ : Reading RawTree) = _
    rw [hbitness, hnames]
    rfl
  show (tree (ofTree t)).mapError Stop.tellMisfit = _
  rw [htree]
  rfl

/-- The document value of a tree of texts and numbers is read as the tree. -/
theorem document_raw {t : Declarations} (hbitness : t.bitness = 32 ∨ t.bitness = 64)
    (hnames : t.names.Nodup) : document (ofTree (raw t)) = .ok (raw t) := by
  refine document_ofTree ?_ (checkNames_of_nodup [] t.nodes hnames (by simp))
  show checkBitness (.int t.bitness) = .ok ()
  rcases hbitness with h | h <;> rw [h] <;> rfl

/-- The leaves of a tree are texts, integers and truth values again. -/
theorem typed?_raw (t : Declarations) : typed? (raw t) = some t := by
  have hnode : ∀ n : Declaration,
      (n.map Json.str Json.int Json.bool).mapM? text? integer? flag? = some n :=
    Node.mapM?_map (fun _ => rfl) (fun _ => rfl) fun _ => rfl
  have hnodes : (raw t).nodes.mapM (·.mapM? text? integer? flag?) = some t.nodes :=
    mapM_map_pure hnode t.nodes
  have hfile : (if (raw t).file.isEmptyValue then "" else (raw t).file.display) = t.file := by
    by_cases h : t.file = ""
    · simp [raw, isEmptyValue, h]
    · simp [raw, isEmptyValue, display, h]
  unfold typed?
  rw [hnodes]
  show some (⟨_, t.bitness, t.nodes⟩ : Declarations) = _
  rw [hfile]

theorem typed_raw (t : Declarations) : typed (raw t) = .ok t := by
  rw [typed, typed?_raw]

/-! ## The tree for making bindings -/

theorem shownFlag_bool (b : Bool) : shownFlag (.bool b) = .bool b := by
  cases b <;> rfl

theorem shownPlace_map (location : Option Place) :
    (location.map (·.map Json.str Json.int)).map shownPlace = location.map (·.map .str .int) := by
  cases location <;> rfl

theorem shownValue_map (v : Enumerator String Int) : shownValue (v.map .str .int) = v.map .str .int := by
  obtain ⟨name, value, location⟩ := v
  cases location <;> rfl

theorem shownBody_map (body : Body String Int Bool) :
    shownBody (body.map .str .int .bool) = body.map .str .int .bool := by
  cases body with
  | record | function => simp only [Body.map, shownBody, shownFlag_bool]
  | enumeration =>
    simp only [Body.map, shownBody, List.map_map, Function.comp_def, shownValue_map]
  | _ => rfl

/-- A tree of texts, integers and truth values is looked at as it is. -/
theorem shown_raw (t : Declarations) : shown (raw t) = raw t := by
  have hnode : ∀ n : Declaration, shownNode (n.map .str .int .bool) = n.map .str .int .bool := by
    intro n
    rw [shownNode, Node.map, shownBody_map, shownPlace_map]
  have hnodes : (raw t).nodes.map shownNode = (raw t).nodes := by
    show (t.nodes.map _).map _ = t.nodes.map _
    rw [List.map_map]
    exact List.map_congr_left fun n _ => hnode n
  rw [shown, hnodes]

/-- So the leaves of a document that was written from such a tree are all of the types for it. -/
theorem typed?_shown_raw (t : Declarations) : typed? (shown (raw t)) = some t := by
  rw [shown_raw, typed?_raw]

/-! ## What the writer puts into a document -/

theorem plainItems_map {α : Type} {write : α → Json} (h : ∀ a, (write a).Plain) (as : List α) :
    PlainItems (as.map write) := by
  induction as with
  | nil => trivial
  | cons a as ih => exact ⟨h a, ih⟩

theorem itemIntegers_map {α : Type} (write : α → Json) (as : List α) :
    itemIntegers (as.map write) = as.flatMap fun a => (write a).integers := by
  induction as with
  | nil => rfl
  | cons a as ih => rw [List.map_cons, itemIntegers, ih, List.flatMap_cons]

theorem memberIntegers_append (ms ms' : List (String × Json)) :
    memberIntegers (ms ++ ms') = memberIntegers ms ++ memberIntegers ms' := by
  induction ms with
  | nil => rfl
  | cons m ms ih => rw [List.cons_append, memberIntegers, memberIntegers, ih, List.append_assoc]

theorem plainMembers_append (ms ms' : List (String × Json)) :
    PlainMembers (ms ++ ms') ↔ PlainMembers ms ∧ PlainMembers ms' := by
  induction ms with
  | nil => simp [PlainMembers]
  | cons m ms ih => simp only [List.cons_append, PlainMembers, ih, and_assoc]

theorem integers_ofLocation (l : Option Place) :
    (ofLocation (l.map (·.map .str .int))).integers = Location.lines l := by
  cases l <;> rfl

theorem integers_ofParameters (ps : List (Parameter String)) :
    (ofParameters (ps.map (·.map .str))).integers = [] := by
  rw [ofParameters, List.map_map, Json.integers, itemIntegers_map]
  exact List.flatMap_eq_nil_iff.2 fun _ _ => rfl

theorem integers_ofEnumerator (v : Enumerator String Int) :
    (ofEnumerator (v.map .str .int)).integers = v.value :: Location.lines v.location := by
  rw [← integers_ofLocation]
  show v.value :: ((ofLocation _).integers ++ []) = _
  rw [List.append_nil]
  rfl

/-- The integers among the members that are particular to a body. -/
theorem memberIntegers_ownMembers (b : Body String Int Bool) :
    memberIntegers (ownMembers (b.map .str .int .bool)) = b.integers := by
  cases b with
  | functionPointer result ps size =>
    show [] ++ ((ofParameters _).integers ++ [size]) = _
    rw [integers_ofParameters]
    rfl
  | function result ps isVariadic convention =>
    show [] ++ ((ofParameters _).integers ++ []) = _
    rw [integers_ofParameters]
    rfl
  | record isUnion fields size align =>
    show itemIntegers ((fields.map _).map _) ++ [size, align] = _
    rw [List.map_map, itemIntegers_map]
    rfl
  | enumeration integerType values =>
    show itemIntegers ((values.map _).map _) ++ [] = _
    rw [List.map_map, itemIntegers_map, List.append_nil]
    exact congrArg values.flatMap (funext integers_ofEnumerator)
  | _ => rfl

theorem integers_ofNode (n : Declaration) :
    (ofNode (n.map .str .int .bool)).integers = n.integers := by
  show memberIntegers ([("kind", Json.str _), ("name", Json.str n.name)]
    ++ ownMembers (n.body.map .str .int .bool)
    ++ [("location", ofLocation (n.location.map (·.map .str .int)))]) = _
  rw [memberIntegers_append, memberIntegers_append, memberIntegers_ownMembers]
  show [] ++ n.body.integers ++ ((ofLocation _).integers ++ []) = _
  rw [List.nil_append, List.append_nil, integers_ofLocation]
  rfl

/-- The integers of a document are those of the tree. -/
theorem integers_ofTree (t : Declarations) : (ofTree (raw t)).integers = t.integers := by
  show [] ++ ([] ++ ([t.bitness] ++ (itemIntegers ((t.nodes.map _).map ofNode) ++ []))) = _
  rw [List.map_map, itemIntegers_map, List.append_nil]
  exact congrArg (t.bitness :: t.nodes.flatMap ·) (funext integers_ofNode)

/-- An object of plain values is plain if no key occurs twice. -/
theorem plain_obj {members : List (String × Json)} (keys : List String)
    (hkeys : members.map (·.1) = keys) (hdistinct : keys.Nodup) (hmembers : PlainMembers members) :
    (Json.obj members).Plain :=
  ⟨hkeys ▸ hdistinct, hmembers⟩

theorem plain_ofLocation (l : Option Place) : (ofLocation (l.map (·.map .str .int))).Plain := by
  cases l with
  | none => trivial
  | some l => exact plain_obj ["filePath", "line"] rfl (by decide) ⟨trivial, trivial, trivial⟩

theorem plain_ofParameters (ps : List (Parameter String)) :
    (ofParameters (ps.map (·.map .str))).Plain := by
  rw [ofParameters, List.map_map]
  refine plainItems_map (fun p => ?_) ps
  exact plain_obj ["name", "type"] rfl (by decide) ⟨trivial, trivial, trivial⟩

theorem plainItems_ofField (xs : List (Field String Int)) :
    PlainItems ((xs.map (·.map .str .int)).map ofField) := by
  rw [List.map_map]
  refine plainItems_map (fun x => ?_) xs
  exact plain_obj ["name", "type", "offset", "sizeOf"] rfl (by decide)
    ⟨trivial, trivial, trivial, trivial, trivial⟩

/-- A node is plain if its own members are, under keys of their own. -/
theorem plain_ofParts {k : Kind} {name : String} {own : List (String × Json)} (l : Option Place)
    (keys : List String) (hkeys : own.map (·.1) = keys)
    (hdistinct : (["kind", "name"] ++ keys ++ ["location"]).Nodup) (hown : PlainMembers own) :
    (ofParts k (.str name) own (l.map (·.map .str .int))).Plain := by
  refine plain_obj _ ?_ hdistinct ?_
  · rw [List.map_append, List.map_append, hkeys]
    rfl
  · simp only [plainMembers_append]
    exact ⟨⟨⟨trivial, trivial, trivial⟩, hown⟩, plain_ofLocation l, trivial⟩

theorem plainItems_ofEnumerator (vs : List (Enumerator String Int)) :
    PlainItems ((vs.map (·.map .str .int)).map ofEnumerator) := by
  rw [List.map_map]
  refine plainItems_map (fun v => ?_) vs
  exact plain_ofParts v.location ["value"] rfl (by decide) ⟨trivial, trivial⟩

theorem plain_ofNode (n : Declaration) : (ofNode (n.map .str .int .bool)).Plain := by
  obtain ⟨name, body, l⟩ := n
  cases body with
  | primitive => exact plain_ofParts l ["sizeOf", "alignOf"] rfl (by decide) ⟨trivial, trivial, trivial⟩
  | pointer => exact plain_ofParts l ["pointeeType", "sizeOf"] rfl (by decide) ⟨trivial, trivial, trivial⟩
  | array =>
    exact plain_ofParts l ["elementType", "elementCount", "sizeOf"] rfl (by decide)
      ⟨trivial, trivial, trivial, trivial⟩
  | functionPointer result ps size =>
    exact plain_ofParts l ["returnType", "parameters", "sizeOf"] rfl (by decide)
      ⟨trivial, plain_ofParameters ps, trivial, trivial⟩
  | record isUnion fields size align =>
    exact plain_ofParts l ["isUnion", "fields", "sizeOf", "alignOf"] rfl (by decide)
      ⟨trivial, plainItems_ofField fields, trivial, trivial, trivial⟩
  | enumeration integerType values =>
    exact plain_ofParts l ["integerType", "values"] rfl (by decide)
      ⟨trivial, plainItems_ofEnumerator values, trivial⟩
  | enumerator => exact plain_ofParts l ["value"] rfl (by decide) ⟨trivial, trivial⟩
  | incomplete => exact plain_ofParts l [] rfl (by decide) trivial
  | typedef => exact plain_ofParts l ["underlyingType"] rfl (by decide) ⟨trivial, trivial⟩
  | function result ps isVariadic convention =>
    exact plain_ofParts l ["returnType", "parameters", "isVariadic", "callingConvention"] rfl
      (by decide) ⟨trivial, plain_ofParameters ps, trivial, trivial, trivial⟩
  | global => exact plain_ofParts l ["type"] rfl (by decide) ⟨trivial, trivial⟩
  | constant => exact plain_ofParts l ["type", "value"] rfl (by decide) ⟨trivial, trivial, trivial⟩

theorem plain_ofTree (t : Declarations) : (ofTree (raw t)).Plain := by
  have hnodes : PlainItems ((t.nodes.map (·.map .str .int .bool)).map ofNode) := by
    rw [List.map_map]
    exact plainItems_map plain_ofNode t.nodes
  exact plain_obj ["kind", "fileName", "bitness", "nodes"] rfl (by decide)
    ⟨trivial, trivial, trivial, hnodes, trivial⟩

/-! ## Texts -/

theorem parse_write {t : Declarations} (hshort : ∀ n ∈ t.integers, IsShort n) :
    parse (write t) = .ok (ofTree (raw t)) := by
  refine parse_toText (plain_ofTree t) ?_
  rwa [integers_ofTree]

/-- A tree whose document can be read is read back. -/
theorem read_write {t : Declarations} (hbitness : t.bitness = 32 ∨ t.bitness = 64)
    (hnames : t.names.Nodup) (hshort : ∀ n ∈ t.integers, IsShort n) :
    read (write t) = .ok (raw t) := by
  rw [read, parse_write hshort]
  show (document (ofTree (raw t))).mapError _ = _
  rw [document_raw hbitness hnames]
  rfl

/-- One integer that is too long makes the whole document unreadable. -/
theorem read_write_of_long {t : Declarations} (hlong : ¬ ∀ n ∈ t.integers, IsShort n) :
    read (write t) = .error (.fault .integerTooLong) := by
  rw [← integers_ofTree] at hlong
  obtain ⟨error, hparse, hfault⟩ := parse_toText_of_long (plain_ofTree t) hlong
  rw [read, write, writeRaw, hparse]
  exact if_pos hfault

theorem ofNode_injective : Function.Injective ofNode := by
  intro n m h
  have hn := node_ofNode n
  rw [h, node_ofNode m] at hn
  exact (Except.ok.inj hn).symm

/-- Different trees have different document values. -/
theorem ofTree_raw_injective {t t' : Declarations} (h : ofTree (raw t) = ofTree (raw t')) : t = t' := by
  have hraw : raw t = raw t' := by
    simp only [ofTree, Json.obj.injEq, List.cons.injEq, Prod.mk.injEq, Json.arr.injEq,
      true_and, and_true] at h
    obtain ⟨hfile, hbitness, hnodes⟩ := h
    have hnodes := (List.map_inj_right fun _ _ => ofNode_injective.eq_iff.1).1 hnodes
    rw [Tree.mk.injEq]
    exact ⟨hfile, hbitness, hnodes⟩
  have ht := typed_raw t
  rw [hraw, typed_raw t'] at ht
  exact (Except.ok.inj ht).symm

/-- **Round trip.** Every tree of one of the two pointer widths with distinct names and integers of at
most 4300 digits is read back from its document, node for node and field for field. So no other tree
has the same document, the tree that was read has it again, and whatever is made from that tree is
what is made from the first one. -/
theorem load_write {t : Declarations} (hbitness : t.bitness = 32 ∨ t.bitness = 64)
    (hnames : t.names.Nodup) (hshort : ∀ n ∈ t.integers, IsShort n) :
    (read (write t) = .ok (raw t) ∧ load (write t) = .ok t) ∧
    (∀ t', write t' = write t → t' = t) ∧
    (read (write t)).map writeRaw = .ok (write t) ∧
    ∀ loaded, load (write t) = .ok loaded → ∀ (policy : Policy) (options : Binding.SourceOptions),
      (Mapping.run ⟨loaded, policy⟩).bindings.map (·.source options)
        = (Mapping.run ⟨t, policy⟩).bindings.map (·.source options) ∧
      (Mapping.run ⟨loaded, policy⟩).diagnostics = (Mapping.run ⟨t, policy⟩).diagnostics := by
  have hread := read_write hbitness hnames hshort
  have hload : load (write t) = .ok t := by
    rw [load, hread]
    exact typed_raw t
  refine ⟨⟨hread, hload⟩, ?_, ?_, ?_⟩
  · intro t' h
    have hparse := parse_write hshort
    rw [← h] at hparse
    -- a document that can be read has no integer that is too long
    by_cases hshort' : ∀ n ∈ t'.integers, IsShort n
    · rw [parse_write hshort'] at hparse
      exact ofTree_raw_injective (Except.ok.inj hparse)
    · rw [← h, read_write_of_long hshort'] at hread
      cases hread
  · rw [hread]
    rfl
  · intro loaded h policy options
    rw [hload] at h
    rw [Except.ok.inj h]
    exact ⟨rfl, rfl⟩

/-- A tree with names that need escapes, nested places and integers of both signs beyond 64 bits. -/
def awkward : Declarations :=
  ⟨"dir \"x\"\\\x01é/h.h", 32,
    [⟨"long\t\n", .primitive 1180591620717411303424 (-1), none⟩,
      ⟨"e😀", .enumeration "long\t\n"
        [⟨"A", -1208925819614629174706176, some ⟨"\u2028", 7⟩⟩, ⟨"", 0, none⟩], some ⟨"", -3⟩⟩,
      ⟨"f", .function "e😀" [⟨"", "f"⟩] true "\x1f", none⟩]⟩

theorem load_write_awkward :
    (awkward.bitness = 32 ∨ awkward.bitness = 64) ∧ awkward.names.Nodup ∧
    (∀ n ∈ awkward.integers, IsShort n) ∧ load (write awkward) = .ok awkward := by
  have hnames : awkward.names.Nodup := by decide
  have hshort : ∀ n ∈ awkward.integers, IsShort n := by decide +kernel
  exact ⟨.inl rfl, hnames, hshort, (load_write (.inl rfl) hnames hshort).1.2⟩

/-- A tree with an integer of 4301 digits. -/
def oversized : Declarations :=
  ⟨"h.h", 64, [⟨"x", .primitive (Int.ofNat (Nat.pow 10 maxIntegerDigits)) 0, none⟩]⟩

/-- Without a bound for the integers there is no round trip. -/
theorem load_write_oversized :
    oversized.bitness = 64 ∧ oversized.names.Nodup ∧ load (write oversized) ≠ .ok oversized := by
  have hmem : Int.ofNat (Nat.pow 10 maxIntegerDigits) ∈ oversized.integers := .tail _ (.head _)
  have hlong : ¬ ∀ n ∈ oversized.integers, IsShort n := fun h => not_isShort_pow (h _ hmem)
  refine ⟨rfl, by decide, ?_⟩
  rw [load, read_write_of_long hlong]
  exact nofun

end CInterop.Document
