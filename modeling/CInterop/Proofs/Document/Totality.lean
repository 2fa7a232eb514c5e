import CInterop.Proofs.Document.RoundTrip
import CInterop.Proofs.Json.Parsed
import CInterop.Proofs.Success

/-!
# Every document is read or refused

Whatever a document holds at whatever place, reading it gives a tree or names the rule that is broken.
A tree that was read is one of the two pointer widths, its names are distinct, it has a node for each
element of the document in the same order, and its own document is read back.

Two places tell what stops the reading, and a stop of another sort would pass both. The first part
follows every access to a value and shows that no such stop comes up: optional members are only asked of
objects, and a value that names no kind is told where it is met.
-/

namespace CInterop.Document

open Header Json

/-! ## What stops the reading -/

/-- The stop is told, by the place where it is met or by the document as a whole. -/
def Stop.Told : Stop → Prop
  | rule _ | misfit _ => True
  | noKind _ | noObject _ => False

/-- Whatever stops the reading is told. -/
def StopsTold {α : Type} (reading : Reading α) : Prop := ∀ stop, reading = .error stop → stop.Told

theorem StopsTold.ok {α : Type} (a : α) : StopsTold (.ok a : Reading α) := nofun

theorem StopsTold.rule {α : Type} (cause : Invalid) : StopsTold (.error (.rule cause) : Reading α) := by
  rintro stop ⟨⟩
  trivial

theorem StopsTold.misfit {α : Type} (found : Misfit) :
    StopsTold (.error (.misfit found) : Reading α) := by
  rintro stop ⟨⟩
  trivial

theorem StopsTold.bind {α β : Type} {reading : Reading α} {next : α → Reading β}
    (h : StopsTold reading) (hnext : ∀ a, reading = .ok a → StopsTold (next a)) :
    StopsTold (reading >>= next) := by
  cases reading with
  | error stop =>
    rintro stop' ⟨⟩
    exact h stop rfl
  | ok a => exact hnext a rfl

theorem StopsTold.mapM {α β : Type} {read : α → Reading β} (h : ∀ a, StopsTold (read a)) (as : List α) :
    StopsTold (as.mapM read) := by
  induction as with
  | nil => exact .ok []
  | cons a as ih =>
    rw [List.mapM_cons]
    exact (h a).bind fun _ _ => ih.bind fun _ _ => .ok _

theorem StopsTold.mapError {α : Type} (x : Except Misfit α) : StopsTold (x.mapError Stop.misfit) := by
  cases x with
  | error found => exact .misfit found
  | ok a => exact .ok a

theorem stopsTold_member (v : Json) (key : String) : StopsTold (member v key) := .mapError _

theorem stopsTold_elements (v : Json) : StopsTold (elements v) := .mapError _

theorem stopsTold_memberElements (v : Json) (key : String) : StopsTold (memberElements v key) :=
  (stopsTold_member v key).bind fun item _ => stopsTold_elements item

theorem stopsTold_location (members : List (String × Json)) : StopsTold (location (.obj members)) := by
  refine StopsTold.bind (.ok (lookup "location" members)) fun found _ => ?_
  split
  · exact .ok none
  · exact .ok none
  · exact (stopsTold_member _ _).bind fun _ _ => (stopsTold_member _ _).bind fun _ _ => .ok _

theorem stopsTold_parameter (v : Json) : StopsTold (parameter v) :=
  (stopsTold_member v _).bind fun _ _ => (stopsTold_member v _).bind fun _ _ => .ok _

theorem stopsTold_parameters (v : Json) : StopsTold (parameters v) :=
  (stopsTold_memberElements v _).bind fun list _ => .mapM stopsTold_parameter list

theorem stopsTold_field (v : Json) : StopsTold (field v) :=
  (stopsTold_member v _).bind fun _ _ => (stopsTold_member v _).bind fun _ _ =>
    (stopsTold_member v _).bind fun _ _ => (stopsTold_member v _).bind fun _ _ => .ok _

theorem ofShown_cases (shown : Json) :
    (∃ k, shown = .str (Kind.name k) ∧ ofShown shown = .ok k) ∨
      ofShown shown = .error (.noKind shown.inner) := by
  cases shown with
  | str text =>
    cases hname : Kind.ofName? text with
    | none =>
      right
      rw [ofShown, hname]
      rfl
    | some k =>
      have hfound : Kind.all.find? (·.name == text) = some k := hname
      have hk := List.find?_some hfound
      rw [beq_iff_eq] at hk
      refine .inl ⟨k, by rw [hk], ?_⟩
      rw [ofShown, hname]
      rfl
  | _ => exact .inr rfl

/-- A node has a kind if it is an object with a member that names one. Otherwise the kind is told to be
missing, or the value is no object. -/
theorem kind_cases (v : Json) :
    (∃ members k, v = .obj members ∧ lookup "kind" members = some (.str k.name) ∧ kind v = .ok k) ∨
      (∃ cause, kind v = .error (.rule cause)) ∨ ∃ found, kind v = .error (.misfit found) := by
  cases v with
  | obj members =>
    cases hlookup : lookup "kind" members with
    | none =>
      have hmember : member (.obj members) "kind" = .error (.misfit (.missingMember "kind")) := by
        simp only [member, Json.member, hlookup]
        rfl
      right; left
      rw [kind, hmember]
      exact ⟨_, rfl⟩
    | some shown =>
      have hread : member (.obj members) "kind" >>= ofShown = ofShown shown := by
        rw [member_obj hlookup]
        rfl
      rcases ofShown_cases shown with ⟨k, rfl, hshown⟩ | hshown
      · exact .inl ⟨members, k, rfl, hlookup, kind_of_ofShown (hread.trans hshown)⟩
      · right; left
        rw [kind, hread, hshown, optional, hlookup]
        exact ⟨_, rfl⟩
  | _ => exact .inr (.inr ⟨_, rfl⟩)

theorem stopsTold_kind (v : Json) : StopsTold (kind v) := by
  rcases kind_cases v with ⟨members, k, -, -, hkind⟩ | ⟨cause, hkind⟩ | ⟨found, hkind⟩
  · rw [hkind]
    exact .ok k
  · rw [hkind]
    exact .rule cause
  · rw [hkind]
    exact .misfit found

theorem stopsTold_plainBody (v : Json) (k : Kind) : StopsTold (plainBody v k) := by
  have hmember := stopsTold_member v
  cases k with
  | translationUnit => exact .rule _
  | incomplete => exact .ok _
  | enumeration => exact (hmember _).bind fun _ _ => .ok _
  | enumerator => exact (hmember _).bind fun _ _ => .ok _
  | typedef => exact (hmember _).bind fun _ _ => .ok _
  | global => exact (hmember _).bind fun _ _ => .ok _
  | primitive => exact (hmember _).bind fun _ _ => (hmember _).bind fun _ _ => .ok _
  | pointer => exact (hmember _).bind fun _ _ => (hmember _).bind fun _ _ => .ok _
  | constant => exact (hmember _).bind fun _ _ => (hmember _).bind fun _ _ => .ok _
  | array =>
    exact (hmember _).bind fun _ _ => (hmember _).bind fun _ _ => (hmember _).bind fun _ _ => .ok _
  | functionPointer =>
    exact (hmember _).bind fun _ _ => (stopsTold_parameters v).bind fun _ _ =>
      (hmember _).bind fun _ _ => .ok _
  | function =>
    exact (hmember _).bind fun _ _ => (stopsTold_parameters v).bind fun _ _ =>
      (hmember _).bind fun _ _ => (hmember _).bind fun _ _ => .ok _
  | record =>
    exact (stopsTold_memberElements v _).bind fun list _ => (StopsTold.mapM stopsTold_field list).bind
      fun _ _ => (hmember _).bind fun _ _ => (hmember _).bind fun _ _ => (hmember _).bind fun _ _ => .ok _

/-! ## Enumerations -/

theorem node_of_not_obj {v : Json} (h : ∀ members, v ≠ .obj members) :
    ∃ found, node v = .error (.misfit found) := by
  cases v with
  | obj members => exact absurd rfl (h members)
  | _ => exact ⟨_, rfl⟩

theorem eq_obj_of_node {v : Json} {n : RawNode} (h : node v = .ok n) : ∃ members, v = .obj members := by
  by_cases hobject : ∃ members, v = .obj members
  · exact hobject
  · obtain ⟨found, hnode⟩ := node_of_not_obj (not_exists.mp hobject)
    rw [hnode] at h
    cases h

theorem enumeratorsAt_values (enumeration v : Json) (rest : List (String × Json)) :
    enumeratorsAt enumeration (("values", v) :: rest) = elements v >>= enumerators enumeration := by
  cases v with
  | obj members => cases members <;> rfl
  | str text =>
    have helements : elements (.str text) = .ok (text.toList.map fun c => .str (String.ofList [c])) := rfl
    unfold enumeratorsAt
    rw [if_pos rfl]
    dsimp only
    rw [helements]
    cases text.toList <;> rfl
  | _ => rfl

/-- The values of an enumeration are read like the elements of any other member. -/
theorem enumeratorsAt_eq (enumeration : Json) (members : List (String × Json)) :
    enumeratorsAt enumeration members
      = memberElements (.obj members) "values" >>= enumerators enumeration := by
  induction members with
  | nil => rfl
  | cons m rest ih =>
    obtain ⟨key, v⟩ := m
    by_cases hkey : key = "values"
    · subst hkey
      have hlookup : lookup "values" (("values", v) :: rest) = some v := if_pos rfl
      rw [enumeratorsAt_values, memberElements, member_obj hlookup]
      rfl
    · have hmember : member (.obj ((key, v) :: rest)) "values" = member (.obj rest) "values" := by
        simp [member, Json.member, lookup, hkey]
      unfold enumeratorsAt
      rw [if_neg hkey, ih, memberElements, memberElements, hmember]

/-- What is iterated like a list is one, or its elements are texts. -/
theorem elements_cases {v : Json} {items : List Json} (h : elements v = .ok items) :
    v = .arr items ∨ ∀ item ∈ items, ∃ text, item = .str text := by
  rw [elements, mapError_eq_ok] at h
  cases v with
  | arr list =>
    cases h
    exact .inl rfl
  | obj members =>
    cases h
    right
    intro item hitem
    obtain ⟨m, -, rfl⟩ := List.mem_map.mp hitem
    exact ⟨m.1, rfl⟩
  | str text =>
    cases h
    right
    intro item hitem
    obtain ⟨c, -, rfl⟩ := List.mem_map.mp hitem
    exact ⟨_, rfl⟩
  | _ => cases h

/-- The members of an enumeration are looked at one by one, and each of its values is a node again. -/
theorem stopsTold_node (v : Json) : StopsTold (node v) := by
  refine node.induct (fun v => StopsTold (node v))
    (fun name members => StopsTold (enumeratorsAt name members))
    (fun name items => StopsTold (enumerators name items)) ?_ ?_ ?_ ?_ ?_ ?_ ?_ ?_ v
  · intro members hvalues
    rw [node]
    refine (stopsTold_kind _).bind fun k _ => (stopsTold_member _ _).bind fun name _ =>
      (stopsTold_location members).bind fun place _ => ?_
    split
    · exact (hvalues name).bind fun _ _ => (stopsTold_member _ _).bind fun _ _ => .ok _
    · exact (stopsTold_plainBody _ _).bind fun _ _ => .ok _
  · intro v hobject
    obtain ⟨found, hnode⟩ := node_of_not_obj hobject
    rw [hnode]
    exact .misfit found
  · intro name
    exact .ok []
  · intro name item rest hitem hrest
    rw [enumerators]
    refine hitem.bind fun n hn => ?_
    split
    · exact hrest.bind fun _ _ => .ok _
    · obtain ⟨members, rfl⟩ := eq_obj_of_node hn
      exact .rule _
  · intro name
    exact .misfit _
  · intro name rest items hitems
    exact hitems
  · intro name rest v harray
    rw [enumeratorsAt_values]
    refine (stopsTold_elements v).bind fun items hitems => ?_
    rcases elements_cases hitems with heq | htexts
    · exact absurd heq (harray items)
    · cases items with
      | nil => exact .ok []
      | cons item items =>
        obtain ⟨text, rfl⟩ := htexts item (by simp)
        exact .misfit _
  · intro name key v rest hkey hrest
    unfold enumeratorsAt
    rw [if_neg hkey]
    exact hrest

/-! ## Trees -/

theorem stopsTold_checkNames (before : List Json) (nodes : List RawNode) :
    StopsTold (checkNames before nodes) := by
  induction nodes generalizing before with
  | nil => exact .ok ()
  | cons n nodes ih =>
    rw [checkNames]
    refine (StopsTold.mapError n.name.asName).bind fun name _ => ?_
    split
    · exact .rule _
    · exact ih _

theorem stopsTold_tree (v : Json) : StopsTold (tree v) := by
  refine (stopsTold_memberElements v _).bind fun items _ =>
    (StopsTold.mapM stopsTold_node items).bind fun nodes _ => (stopsTold_member v _).bind fun file _ =>
    (stopsTold_member v _).bind fun bitness _ => StopsTold.bind ?_ fun _ _ =>
    (stopsTold_checkNames [] nodes).bind fun _ _ => .ok _
  unfold checkBitness
  split
  · exact .ok ()
  · exact .rule _

/-- Whatever stops the reading of a document is told as a rule that is broken. -/
theorem document_rule {v : Json} {stop : Stop} (h : document v = .error stop) :
    ∃ cause, stop = .rule cause := by
  cases v with
  | obj members =>
    rw [document] at h
    split at h
    · obtain ⟨stop', htree, rfl⟩ := mapError_eq_error.mp h
      have htold := stopsTold_tree _ stop' htree
      cases stop' with
      | rule cause => exact ⟨cause, rfl⟩
      | misfit found => exact ⟨_, rfl⟩
      | noKind | noObject => exact htold.elim
    · cases h
      exact ⟨_, rfl⟩
  | _ =>
    cases h
    exact ⟨_, rfl⟩

/-- A document is a tree, or breaks a rule. -/
theorem read_of_parse {text : String} {v : Json} (h : parse text = .ok v) :
    read text = (ofJson v).mapError .invalid := by
  rw [read, h, ofJson]
  show (document v).mapError Stop.failure = _
  cases hdocument : document v with
  | ok t => rfl
  | error stop =>
    obtain ⟨cause, rfl⟩ := document_rule hdocument
    rfl

/-! ## Leaves -/

/-- What holds of every leaf of a place, if there is one. -/
def PlaceAll (P : Json → Prop) : Option (Location Json Json) → Prop
  | none => True
  | some l => P l.file ∧ P l.line

/-- What holds of every leaf of a body. -/
def BodyAll (P : Json → Prop) : Body Json Json Json → Prop
  | .primitive size align => P size ∧ P align
  | .pointer pointee size => P pointee ∧ P size
  | .array element count size => P element ∧ P count ∧ P size
  | .functionPointer result parameters size =>
    P result ∧ (∀ p ∈ parameters, P p.name ∧ P p.type) ∧ P size
  | .record isUnion fields size align =>
    P isUnion ∧ (∀ x ∈ fields, P x.name ∧ P x.type ∧ P x.offset ∧ P x.size) ∧ P size ∧ P align
  | .enumeration integerType values =>
    P integerType ∧ ∀ v ∈ values, P v.name ∧ P v.value ∧ PlaceAll P v.location
  | .enumerator value => P value
  | .incomplete => True
  | .typedef underlying => P underlying
  | .function result parameters isVariadic convention =>
    P result ∧ (∀ p ∈ parameters, P p.name ∧ P p.type) ∧ P isVariadic ∧ P convention
  | .global type => P type
  | .constant type value => P type ∧ P value

/-- What holds of every leaf of a node. -/
def NodeAll (P : Json → Prop) (n : RawNode) : Prop :=
  P n.name ∧ BodyAll P n.body ∧ PlaceAll P n.location

/-- What holds of everything a reading gives. -/
def Gives {α : Type} (P : α → Prop) (reading : Reading α) : Prop := ∀ a, reading = .ok a → P a

theorem Gives.ok {α : Type} {P : α → Prop} {a : α} (h : P a) : Gives P (.ok a) := by
  rintro a' ⟨⟩
  exact h

theorem Gives.bind {α β : Type} {P : α → Prop} {Q : β → Prop} {reading : Reading α}
    {next : α → Reading β} (h : Gives P reading) (hnext : ∀ a, P a → Gives Q (next a)) :
    Gives Q (reading >>= next) := by
  intro b hb
  obtain ⟨a, ha, hb⟩ := bind_eq_ok.mp hb
  exact hnext a (h a ha) b hb

theorem Gives.mapM {α β : Type} {P : α → Prop} {Q : β → Prop} {read : α → Reading β}
    (h : ∀ a, P a → Gives Q (read a)) {as : List α} (has : ∀ a ∈ as, P a) :
    Gives (fun bs => ∀ b ∈ bs, Q b) (as.mapM read) := by
  intro bs hbs
  exact forall_mem_of_forall₂ (mapM_eq_ok.mp hbs) (fun a b hread ha => h a ha b hread) has

theorem member_eq_ok {v item : Json} {key : String} : member v key = .ok item ↔ v.get? key = some item := by
  rw [member, mapError_eq_ok]
  cases v with
  | obj members =>
    simp only [Json.member, get?]
    cases lookup key members <;> simp
  | _ => simp [Json.member, get?]

theorem memberElements_eq_ok {v : Json} {key : String} {items : List Json} :
    memberElements v key = .ok items ↔ ∃ list, v.get? key = some list ∧ list.elements = .ok items := by
  rw [memberElements, bind_eq_ok]
  constructor
  · rintro ⟨list, hlist, helements⟩
    exact ⟨list, member_eq_ok.mp hlist, mapError_eq_ok.mp helements⟩
  · rintro ⟨list, hlist, helements⟩
    exact ⟨list, member_eq_ok.mpr hlist, mapError_eq_ok.mpr helements⟩

theorem mem_of_lookup {key : String} {item : Json} {members : List (String × Json)}
    (h : lookup key members = some item) : (key, item) ∈ members := by
  induction members with
  | nil => cases h
  | cons m rest ih =>
    rw [lookup] at h
    split at h
    · rename_i hkey
      cases h
      rw [← hkey]
      exact List.mem_cons_self
    · exact List.mem_cons_of_mem _ (ih h)

/-- What holds of a value holds of its parts. -/
structure Hereditary (P : Json → Prop) : Prop where
  member : ∀ {v item : Json} {key : String}, P v → v.get? key = some item → P item
  elements : ∀ {v : Json} {items : List Json}, P v → elements v = .ok items → ∀ item ∈ items, P item

theorem hereditary_true : Hereditary fun _ => True := ⟨fun _ _ => trivial, fun _ _ _ _ => trivial⟩

theorem hereditary_writable : Hereditary Writable where
  member := by
    intro v item key h hget
    cases v with
    | obj members => exact (writable_obj.mp h).2 _ (mem_of_lookup hget)
    | _ => cases hget
  elements := by
    intro v items h hitems
    rcases elements_cases hitems with rfl | htexts
    · exact writable_arr.mp h
    · intro item hitem
      obtain ⟨text, rfl⟩ := htexts item hitem
      exact writable_str text

section Parts

variable {P : Json → Prop} (hP : Hereditary P) {v : Json} (h : P v)

include hP h

theorem gives_member (key : String) : Gives P (member v key) :=
  fun _ hitem => hP.member h (member_eq_ok.mp hitem)

theorem gives_memberElements (key : String) :
    Gives (fun items => ∀ item ∈ items, P item) (memberElements v key) :=
  (gives_member hP h key).bind fun _ hlist _ hitems => hP.elements hlist hitems

theorem gives_location : Gives (PlaceAll P) (location v) := by
  have hoptional : Gives (fun found => ∀ item, found = some item → P item) (optional v "location") := by
    intro found hfound
    cases v with
    | obj members =>
      cases hfound
      exact fun item hitem => hP.member h hitem
    | _ => cases hfound
  refine hoptional.bind fun found hfound => ?_
  split
  · exact .ok trivial
  · exact .ok trivial
  · have hplace := hfound _ rfl
    exact (gives_member hP hplace _).bind fun _ hfile => (gives_member hP hplace _).bind fun _ hline =>
      .ok ⟨hfile, hline⟩

theorem gives_parameter : Gives (fun p => P p.name ∧ P p.type) (parameter v) :=
  (gives_member hP h _).bind fun _ hname => (gives_member hP h _).bind fun _ htype => .ok ⟨hname, htype⟩

theorem gives_parameters : Gives (fun ps => ∀ p ∈ ps, P p.name ∧ P p.type) (parameters v) :=
  (gives_memberElements hP h _).bind fun _ hitems => .mapM (fun _ => gives_parameter hP) hitems

theorem gives_field :
    Gives (fun x => P x.name ∧ P x.type ∧ P x.offset ∧ P x.size) (field v) :=
  (gives_member hP h _).bind fun _ hname => (gives_member hP h _).bind fun _ htype =>
    (gives_member hP h _).bind fun _ hoffset => (gives_member hP h _).bind fun _ hsize =>
    .ok ⟨hname, htype, hoffset, hsize⟩

/-- A body that is read has the kind it is read as, and its leaves are parts of the value. -/
theorem gives_plainBody (k : Kind) :
    Gives (fun body => body.kind = k ∧ BodyAll P body) (plainBody v k) := by
  have hmember := gives_member hP h
  have hparameters := gives_parameters hP h
  cases k with
  | translationUnit => exact nofun
  | incomplete => exact .ok ⟨rfl, trivial⟩
  | enumeration => exact (hmember _).bind fun _ htype => .ok ⟨rfl, htype, by simp⟩
  | enumerator => exact (hmember _).bind fun _ hvalue => .ok ⟨rfl, hvalue⟩
  | typedef => exact (hmember _).bind fun _ htype => .ok ⟨rfl, htype⟩
  | global => exact (hmember _).bind fun _ htype => .ok ⟨rfl, htype⟩
  | primitive =>
    exact (hmember _).bind fun _ hsize => (hmember _).bind fun _ halign => .ok ⟨rfl, hsize, halign⟩
  | pointer =>
    exact (hmember _).bind fun _ htype => (hmember _).bind fun _ hsize => .ok ⟨rfl, htype, hsize⟩
  | constant =>
    exact (hmember _).bind fun _ htype => (hmember _).bind fun _ hvalue => .ok ⟨rfl, htype, hvalue⟩
  | array =>
    exact (hmember _).bind fun _ htype => (hmember _).bind fun _ hcount =>
      (hmember _).bind fun _ hsize => .ok ⟨rfl, htype, hcount, hsize⟩
  | functionPointer =>
    exact (hmember _).bind fun _ htype => hparameters.bind fun _ hall =>
      (hmember _).bind fun _ hsize => .ok ⟨rfl, htype, hall, hsize⟩
  | function =>
    exact (hmember _).bind fun _ htype => hparameters.bind fun _ hall =>
      (hmember _).bind fun _ hvariadic => (hmember _).bind fun _ hconvention =>
      .ok ⟨rfl, htype, hall, hvariadic, hconvention⟩
  | record =>
    exact (gives_memberElements hP h _).bind fun _ hitems =>
      (Gives.mapM (fun _ => gives_field hP) hitems).bind fun _ hfields =>
      (hmember _).bind fun _ hunion => (hmember _).bind fun _ hsize =>
      (hmember _).bind fun _ halign => .ok ⟨rfl, hunion, hfields, hsize, halign⟩

end Parts

/-! ## What a node was read from -/

/-- The values of an enumeration were read from nodes, one from each. -/
theorem enumerators_eq_ok {enumeration : Json} {items : List Json} {values : List (Enumerator Json Json)}
    (h : enumerators enumeration items = .ok values) :
    List.Forall₂ (fun item value =>
      node item = .ok ⟨value.name, .enumerator value.value, value.location⟩) items values := by
  induction items generalizing values with
  | nil =>
    cases h
    exact .nil
  | cons item items ih =>
    rw [enumerators, bind_eq_ok] at h
    obtain ⟨⟨name, body, place⟩, hnode, h⟩ := h
    dsimp only at h
    split at h
    · rw [bind_eq_ok] at h
      obtain ⟨others, hothers, heq⟩ := h
      cases heq
      exact .cons hnode (ih hothers)
    · rw [bind_eq_ok] at h
      obtain ⟨shown, -, heq⟩ := h
      cases heq

/-- The steps in which a node is read. -/
theorem node_eq_ok {v : Json} {n : RawNode} (h : node v = .ok n) :
    ∃ k, v.get? "kind" = some (.str k.name) ∧ v.get? "name" = some n.name ∧
      location v = .ok n.location ∧
      ((∃ type items values, member v "integerType" = .ok type ∧ memberElements v "values" = .ok items ∧
          enumerators n.name items = .ok values ∧ k = .enumeration ∧ n.body = .enumeration type values) ∨
        k ≠ .enumeration ∧ plainBody v k = .ok n.body) := by
  obtain ⟨members, rfl⟩ := eq_obj_of_node h
  rw [node] at h
  simp only [bind_eq_ok] at h
  obtain ⟨k, hkind, name, hname, place, hplace, h⟩ := h
  have hshown : lookup "kind" members = some (.str k.name) := by
    rcases kind_cases (.obj members) with ⟨_, k', heq, hlookup, hkind'⟩ | ⟨cause, hkind'⟩ | ⟨found, hkind'⟩
    · cases heq
      rw [hkind] at hkind'
      cases hkind'
      exact hlookup
    · rw [hkind] at hkind'
      cases hkind'
    · rw [hkind] at hkind'
      cases hkind'
  refine ⟨k, hshown, ?_⟩
  split at h
  · simp only [bind_eq_ok, enumeratorsAt_eq] at h
    obtain ⟨values, ⟨items, hitems, hvalues⟩, type, htype, heq⟩ := h
    cases heq
    exact ⟨member_eq_ok.mp hname, hplace, .inl ⟨type, items, values, htype, hitems, hvalues, rfl, rfl⟩⟩
  · rename_i hne
    rw [bind_eq_ok] at h
    obtain ⟨body, hbody, heq⟩ := h
    cases heq
    exact ⟨member_eq_ok.mp hname, hplace, .inr ⟨hne, hbody⟩⟩

/-- What a node of the tree has in common with the element of the document it was read from. -/
structure ReadFrom (item : Json) (n : RawNode) : Prop where
  read : node item = .ok n
  kind : item.get? "kind" = some (.str n.kind.name)
  /-- Documents do not occur inside of documents. -/
  notADocument : n.kind ≠ .translationUnit
  /-- The values of an enumeration were nodes for values, one for each. -/
  enumerators : ∀ type values, n.body = .enumeration type values → ∃ list items,
    item.get? "values" = some list ∧ list.elements = .ok items ∧
    List.Forall₂ (fun inner value =>
      node inner = .ok ⟨value.name, .enumerator value.value, value.location⟩) items values

theorem readFrom_of_node {item : Json} {n : RawNode} (h : node item = .ok n) : ReadFrom item n := by
  obtain ⟨k, hkind, -, -, hbody⟩ := node_eq_ok h
  have hnotADocument : n.kind ≠ .translationUnit := by
    unfold Node.kind
    cases n.body <;> exact nofun
  rcases hbody with ⟨type, items, values, -, hitems, hvalues, rfl, hbody⟩ | ⟨hne, hbody⟩
  · refine ⟨h, ?_, hnotADocument, ?_⟩
    · rw [hkind, Node.kind, hbody]
      rfl
    · intro type' values' heq
      rw [hbody] at heq
      cases heq
      obtain ⟨list, hlist, helements⟩ := memberElements_eq_ok.mp hitems
      exact ⟨list, items, hlist, helements, enumerators_eq_ok hvalues⟩
  · have hk : n.body.kind = k := (gives_plainBody hereditary_true trivial k n.body hbody).1
    refine ⟨h, ?_, hnotADocument, ?_⟩
    · rw [hkind, Node.kind, hk]
    · intro type values heq
      rw [heq] at hk
      exact absurd hk.symm hne

theorem parts_of_enumerator {P : Json → Prop} (hP : Hereditary P) {item : Json}
    {value : Enumerator Json Json} (h : P item)
    (hnode : node item = .ok ⟨value.name, .enumerator value.value, value.location⟩) :
    P value.name ∧ P value.value ∧ PlaceAll P value.location := by
  obtain ⟨k, -, hname, hplace, hbody⟩ := node_eq_ok hnode
  refine ⟨hP.member h hname, ?_, gives_location hP h _ hplace⟩
  rcases hbody with ⟨type, items, values, -, -, -, -, heq⟩ | ⟨hne, hbody⟩
  · cases heq
  · exact (gives_plainBody hP h k _ hbody).2

/-- The leaves of a node are parts of the value it was read from. -/
theorem gives_node {P : Json → Prop} (hP : Hereditary P) {v : Json} (h : P v) :
    Gives (NodeAll P) (node v) := by
  intro n hn
  obtain ⟨k, -, hname, hplace, hbody⟩ := node_eq_ok hn
  refine ⟨hP.member h hname, ?_, gives_location hP h _ hplace⟩
  rcases hbody with ⟨type, items, values, htype, hitems, hvalues, rfl, hbody⟩ | ⟨hne, hbody⟩
  · rw [hbody]
    refine ⟨gives_member hP h _ _ htype, ?_⟩
    exact forall_mem_of_forall₂ (enumerators_eq_ok hvalues)
      (fun item value hvalue hitem => parts_of_enumerator hP hitem hvalue)
      (gives_memberElements hP h _ _ hitems)
  · exact (gives_plainBody hP h k n.body hbody).2

/-! ## Writing what was read -/

theorem writable_ofLocation {l : Option (Location Json Json)} (h : PlaceAll Writable l) :
    Writable (ofLocation l) := by
  cases l with
  | none => exact writable_null
  | some l => exact writable_obj.mpr ⟨by simp, by simpa [PlaceAll] using h⟩

theorem writable_ofParameters {ps : List (Parameter Json)}
    (h : ∀ p ∈ ps, Writable p.name ∧ Writable p.type) : Writable (ofParameters ps) := by
  refine writable_arr.mpr fun item hitem => ?_
  obtain ⟨p, hp, rfl⟩ := List.mem_map.mp hitem
  exact writable_obj.mpr ⟨by simp, by simpa using h p hp⟩

theorem writable_ofField {x : Field Json Json}
    (h : Writable x.name ∧ Writable x.type ∧ Writable x.offset ∧ Writable x.size) :
    Writable (ofField x) :=
  writable_obj.mpr ⟨by simp, by simpa using h⟩

/-- An object for a node can be written if its own members can, under keys of their own. -/
theorem writable_ofParts {k : Kind} {name : Json} {own : List (String × Json)}
    {l : Option (Location Json Json)} (hname : Writable name) (hl : PlaceAll Writable l)
    (keys : List String) (hkeys : own.map (·.1) = keys)
    (hdistinct : (["kind", "name"] ++ keys ++ ["location"]).Nodup) (hown : ∀ m ∈ own, Writable m.2) :
    Writable (ofParts k name own l) := by
  refine writable_obj.mpr ⟨?_, ?_⟩
  · rw [List.map_append, List.map_append, hkeys]
    exact hdistinct
  · intro m hm
    simp only [List.mem_append, List.mem_cons, List.not_mem_nil, or_false] at hm
    rcases hm with ((rfl | rfl) | hm) | rfl
    · exact writable_str _
    · exact hname
    · exact hown m hm
    · exact writable_ofLocation hl

/-- A node whose leaves can be written can be written. -/
theorem writable_ofNode {n : RawNode} (h : NodeAll Writable n) : Writable (ofNode n) := by
  obtain ⟨name, body, l⟩ := n
  obtain ⟨hname, hbody, hl⟩ := h
  have hparts := @writable_ofParts body.kind name (ownMembers body) l hname hl
  cases body with
  | primitive =>
    exact hparts ["sizeOf", "alignOf"] rfl (by decide) (by simpa [ownMembers, BodyAll] using hbody)
  | pointer =>
    exact hparts ["pointeeType", "sizeOf"] rfl (by decide) (by simpa [ownMembers, BodyAll] using hbody)
  | array =>
    exact hparts ["elementType", "elementCount", "sizeOf"] rfl (by decide)
      (by simpa [ownMembers, BodyAll] using hbody)
  | functionPointer result ps size =>
    exact hparts ["returnType", "parameters", "sizeOf"] rfl (by decide)
      (by simpa [ownMembers] using ⟨hbody.1, writable_ofParameters hbody.2.1, hbody.2.2⟩)
  | record isUnion fields size align =>
    have hfields : Writable (.arr (fields.map ofField)) := by
      refine writable_arr.mpr fun item hitem => ?_
      obtain ⟨x, hx, rfl⟩ := List.mem_map.mp hitem
      exact writable_ofField (hbody.2.1 x hx)
    exact hparts ["isUnion", "fields", "sizeOf", "alignOf"] rfl (by decide)
      (by simpa [ownMembers] using ⟨hbody.1, hfields, hbody.2.2⟩)
  | enumeration integerType values =>
    have hvalues : Writable (.arr (values.map ofEnumerator)) := by
      refine writable_arr.mpr fun item hitem => ?_
      obtain ⟨v, hv, rfl⟩ := List.mem_map.mp hitem
      have hleaves := hbody.2 v hv
      exact writable_ofParts hleaves.1 hleaves.2.2 ["value"] rfl (by decide) (by simpa using hleaves.2.1)
    exact hparts ["integerType", "values"] rfl (by decide)
      (by simpa [ownMembers] using ⟨hbody.1, hvalues⟩)
  | enumerator => exact hparts ["value"] rfl (by decide) (by simpa [ownMembers, BodyAll] using hbody)
  | incomplete => exact hparts [] rfl (by decide) (by simp [ownMembers])
  | typedef => exact hparts ["underlyingType"] rfl (by decide) (by simpa [ownMembers, BodyAll] using hbody)
  | function result ps isVariadic convention =>
    exact hparts ["returnType", "parameters", "isVariadic", "callingConvention"] rfl (by decide)
      (by simpa [ownMembers] using ⟨hbody.1, writable_ofParameters hbody.2.1, hbody.2.2⟩)
  | global => exact hparts ["type"] rfl (by decide) (by simpa [ownMembers, BodyAll] using hbody)
  | constant => exact hparts ["type", "value"] rfl (by decide) (by simpa [ownMembers, BodyAll] using hbody)

/-! ## The tree of a document -/

theorem checkBitness_eq_ok {v : Json} (hv : Writable v) (h : checkBitness v = .ok ()) :
    v = .int 32 ∨ v = .int 64 := by
  unfold checkBitness at h
  split at h
  · rename_i hsame
    cases v with
    | real x => exact absurd hv.1 id
    | int n =>
      have hn : n = 32 ∨ n = 64 := by simpa [sameName, sameName.asNumber] using hsame
      rcases hn with rfl | rfl
      · exact .inl rfl
      · exact .inr rfl
    | bool b => cases b <;> simp [sameName, sameName.asNumber] at hsame
    | _ => simp [sameName, sameName.asNumber] at hsame
  · cases h

theorem asName_eq_ok {v name : Json} (h : v.asName = .ok name) : name = v := by
  cases v with
  | arr items => cases h
  | obj members => cases h
  | _ =>
    cases h
    rfl

/-- Names that were checked can serve as names, differ from those before and from each other. -/
theorem checkNames_eq_ok {before : List Json} {nodes : List RawNode}
    (h : checkNames before nodes = .ok ()) :
    (∀ n ∈ nodes, n.name.asName = .ok n.name ∧ ∀ name ∈ before, name.sameName n.name = false) ∧
      nodes.Pairwise fun a b => a.name.sameName b.name = false := by
  induction nodes generalizing before with
  | nil => simp
  | cons n nodes ih =>
    rw [checkNames, bind_eq_ok] at h
    obtain ⟨name, hname, h⟩ := h
    rw [mapError_eq_ok] at hname
    obtain rfl := asName_eq_ok hname
    split at h
    · cases h
    · rename_i hnew
      obtain ⟨hrest, hpairwise⟩ := ih h
      rw [Bool.not_eq_true, List.any_eq_false] at hnew
      rw [List.forall_mem_cons, List.pairwise_cons]
      refine ⟨⟨⟨hname, fun other hother => ?_⟩, fun m hm => ⟨(hrest m hm).1, fun other hother => ?_⟩⟩,
        fun m hm => ?_, hpairwise⟩
      · exact Bool.not_eq_true _ ▸ hnew other hother
      · exact (hrest m hm).2 other (List.mem_cons_of_mem _ hother)
      · exact (hrest m hm).2 n.name List.mem_cons_self

/-- What a tree has in common with the document it was read from. -/
structure TreeOf (v : Json) (t : RawTree) : Prop where
  bitness : t.bitness = .int 32 ∨ t.bitness = .int 64
  /-- Every name can serve as one. -/
  names : ∀ n ∈ t.nodes, n.name.asName = .ok n.name
  distinct : t.nodes.Pairwise fun a b => a.name.sameName b.name = false
  /-- The tree has one node for each element of the document, in the same order. -/
  nodes : ∃ list items, v.get? "nodes" = some list ∧ list.elements = .ok items ∧
    List.Forall₂ ReadFrom items t.nodes

/-- A tree that was read is that of its document, and its own document is read back. -/
theorem document_eq_ok {v : Json} {t : RawTree} (hv : Writable v) (h : document v = .ok t) :
    TreeOf v t ∧ Writable (ofTree t) ∧ document (ofTree t) = .ok t := by
  have htree : tree v = .ok t := by
    unfold document at h
    split at h
    · split at h
      · exact mapError_eq_ok.mp h
      · cases h
    · cases h
  simp only [tree, bind_eq_ok] at htree
  obtain ⟨items, hitems, nodes, hnodes, file, hfile, bitness, hbitness, ⟨⟩, hwidth, ⟨⟩, hnames, heq⟩ :=
    htree
  cases heq
  have hparts := gives_member hereditary_writable hv
  have hall : ∀ n ∈ nodes, NodeAll Writable n :=
    Gives.mapM (fun _ => gives_node hereditary_writable)
      (gives_memberElements hereditary_writable hv _ _ hitems) nodes hnodes
  obtain ⟨list, hlist, helements⟩ := memberElements_eq_ok.mp hitems
  obtain ⟨hsuited, hdistinct⟩ := checkNames_eq_ok hnames
  refine ⟨⟨?_, ?_, hdistinct, list, items, hlist, helements, ?_⟩, ?_, document_ofTree hwidth hnames⟩
  · exact checkBitness_eq_ok (hparts _ _ hbitness) hwidth
  · exact fun n hn => (hsuited n hn).1
  · exact (mapM_eq_ok.mp hnodes).imp fun _ _ => readFrom_of_node
  · have hwritten : Writable (.arr (nodes.map ofNode)) := by
      refine writable_arr.mpr fun item hitem => ?_
      obtain ⟨n, hn, rfl⟩ := List.mem_map.mp hitem
      exact writable_ofNode (hall n hn)
    refine writable_obj.mpr ⟨by simp, ?_⟩
    simpa [writable_str] using ⟨hparts _ _ hfile, hparts _ _ hbitness, hwritten⟩

/-- A document with members out of order and values of types that none of them should have. -/
def curious : Json :=
  .obj [("bitness", .int 64), ("nodes", .arr [
      .obj [("name", .null), ("kind", .str "enum"), ("integerType", .arr [.int (-1)]), ("values", .arr [
        .obj [("value", .str "x"), ("name", .bool true), ("kind", .str "enumValue")]])],
      .obj [("location", .obj [("line", .str "two"), ("filePath", .int 1)]), ("alignOf", .obj []),
        ("sizeOf", .bool false), ("name", .int 7), ("kind", .str "primitive")]]),
    ("fileName", .arr [.null]), ("kind", .str "translationUnit")]

end CInterop.Document
