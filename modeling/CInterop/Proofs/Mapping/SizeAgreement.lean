import CInterop.Proofs.Mapping.Size

/-!
# The two ways to a size

A tree resolves all typedefs up to the next enumeration, looking out for cycles, and goes on from there
with the integer type. The mapping takes typedefs and enumerations one by one and gives up a typedef once
it has followed too many of them. Where the chain of a name ends before that, both come to the same: the
size of the type at its end, or a type that is missing there.
-/

namespace CInterop.Mapping

open Header

section

variable {t : Declarations} {links links' steps : Nat} {name next last last' : String}

/-! ## Chains that end -/

/-- All chains of a name have the same number of links. -/
theorem ChainEnds.links_unique (h : ChainEnds t links name last) (h' : ChainEnds t links' name last') :
    links = links' := by
  induction h generalizing links' with
  | here hend =>
    cases h' with
    | here => rfl
    | link hnext _ => cases hend.symm.trans hnext
  | link hnext _ ih =>
    cases h' with
    | here hend => cases hend.symm.trans hnext
    | link hnext' hrest =>
      cases hnext.symm.trans hnext'
      rw [ih hrest]

/-- A chain that ends passes no name twice, so it has no more links than the tree has nodes. -/
theorem ChainEnds.links_le (h : ChainEnds t links name last) : links ≤ t.nodes.length := by
  -- a name that is passed is told from those before it by how many links remain
  have hpassed : ∃ passed : List String, passed.length = links ∧ passed.Nodup ∧ passed ⊆ t.names ∧
      ∀ other ∈ passed, ∃ rest ≤ links, ChainEnds t rest other last := by
    induction h with
    | here => exact ⟨[], rfl, List.nodup_nil, List.nil_subset _, fun _ h => absurd h List.not_mem_nil⟩
    | @link links name next last hnext hrest ih =>
      obtain ⟨passed, hlength, hnodup, hsubset, hends⟩ := ih
      have hnew : name ∉ passed := by
        intro hmem
        obtain ⟨rest, hle, hend⟩ := hends name hmem
        have hsame := hend.links_unique (.link hnext hrest)
        omega
      have hname : name ∈ t.names := by
        obtain ⟨node, hnode, -⟩ := Option.bind_eq_some_iff.mp hnext
        exact List.mem_map.mpr ⟨node, node?_mem hnode, node?_name hnode⟩
      refine ⟨name :: passed, congrArg Nat.succ hlength, List.nodup_cons.mpr ⟨hnew, hnodup⟩,
        List.cons_subset.mpr ⟨hname, hsubset⟩, fun other hother => ?_⟩
      rcases List.mem_cons.mp hother with rfl | hother
      · exact ⟨links + 1, Nat.le_refl _, .link hnext hrest⟩
      · obtain ⟨rest, hle, hend⟩ := hends other hother
        exact ⟨rest, Nat.le_succ_of_le hle, hend⟩
  obtain ⟨passed, rfl, hnodup, hsubset, -⟩ := hpassed
  calc passed.length ≤ t.names.length := (hnodup.subperm hsubset).length_le
    _ = t.nodes.length := List.length_map _

/-! ## The size that the tree has -/

/-- What there is to find at the end of a chain: the size that the type states, or no type. Then the name
that does not resolve is one from which typedefs lead there. -/
inductive SizeAt (t : Declarations) (last : String) : Except Failure Int → Prop where
  | stated {node : Declaration} (h : t.node? last = some node) : SizeAt t last (.ok node.body.statedSize)
  | missing {start : String} (h : t.node? last = none)
      (hstart : Relation.ReflTransGen t.RefersTo start last) :
      SizeAt t last (.error (.invalid (.unknownType start)))

/-- A typedef has the size of what it refers to. Only the name that does not resolve may be another. -/
theorem SizeAt.of_refersTo (h : t.RefersTo name next)
    (hsize : SizeAt t last (t.sizeWithin (steps + 1) next)) :
    SizeAt t last (t.sizeWithin (steps + 1) name) := by
  have hfinds := Tree.finds_resolveTypedef t next
  cases hresolved : t.resolveTypedef next with
  | ok node =>
    rw [hresolved] at hfinds
    rw [Tree.sizeWithin_of_endsAt hfinds.endsAt] at hsize
    obtain ⟨other, hreaches, hnode⟩ := hfinds.endsAt
    rwa [Tree.sizeWithin_of_endsAt ⟨other, .head h hreaches, hnode⟩]
  | error cause =>
    have herror : t.sizeWithin (steps + 1) next = .error (.invalid cause) := by
      rw [Tree.sizeWithin, hresolved]
      rfl
    rw [herror] at hsize
    cases hsize with
    | missing hlast hstart =>
      rw [hresolved] at hfinds
      cases hfinds with
      | nothing _ =>
        rw [Tree.sizeWithin_of_leaves ⟨last, .head h hstart, hlast⟩]
        exact .missing hlast (.head h hstart)

/-- With more steps than the chain has links, the tree finds what there is at its end. -/
theorem sizeAt_sizeWithin (h : ChainEnds t links name last) (hsteps : links < steps) :
    SizeAt t last (t.sizeWithin steps name) := by
  induction h generalizing steps with
  | @here name hend =>
    obtain ⟨steps, rfl⟩ := Nat.exists_eq_succ_of_ne_zero (Nat.ne_of_gt hsteps)
    cases hnode : t.node? name with
    | none =>
      rw [Tree.sizeWithin_of_leaves ⟨name, .refl, hnode⟩]
      exact .missing hnode .refl
    | some node =>
      rw [sizedBy?_of_node? hnode] at hend
      have hkind : node.kind ≠ .typedef := by
        intro hkind
        obtain ⟨underlying, hbody⟩ := Tree.exists_underlying hkind
        rw [hbody] at hend
        cases hend
      rw [Tree.sizeWithin_of_endsAt ⟨name, .refl, hkind, hnode⟩]
      split
      · rename_i hbody
        rw [hbody] at hend
        cases hend
      · exact .stated hnode
  | @link links name next last hnext _ ih =>
    obtain ⟨steps, rfl⟩ := Nat.exists_eq_succ_of_ne_zero (Nat.ne_of_gt (Nat.zero_lt_of_lt hsteps))
    obtain ⟨node, hnode, hbody⟩ := Option.bind_eq_some_iff.mp hnext
    rcases body_of_measuredBy? hbody with htypedef | ⟨values, henumeration⟩
    · exact (ih (Nat.lt_of_succ_lt hsteps)).of_refersTo ⟨node, hnode, htypedef⟩
    · have hkind : node.kind ≠ .typedef := by
        rw [Node.kind, henumeration]
        show Kind.enumeration ≠ .typedef
        decide
      rw [Tree.sizeWithin_of_endsAt ⟨name, .refl, hkind, hnode⟩, henumeration]
      exact ih (Nat.lt_of_succ_lt_succ hsteps)

theorem sizeAt_sizeOf (h : ChainEnds t links name last) : SizeAt t last (t.sizeOf name) :=
  sizeAt_sizeWithin h (Nat.lt_succ_of_le h.links_le)

end

/-! ## Agreement -/

/-- The tree and the mapping agree on the size of every name whose chain ends after at most 64 typedefs and
enumerations: where one has a size the other has the same, and the mapping comes upon a missing type
exactly where the tree has a name that does not resolve. Nothing else comes of it: a node at the end of the
chain, whatever its kind, gives the size that it states, and where there is no node the type is missing. -/
theorem sizeOf_agrees {s : Setting} {links : Nat} {name last : String}
    (h : ChainEnds s.tree links name last) (hlinks : links ≤ 64) :
    (∀ size, s.sizeOf name = .ok size ↔ s.tree.sizeOf name = .ok size) ∧
    ((∃ type, s.sizeOf name = .error (.dangling type)) ↔
      ∃ start, s.tree.sizeOf name = .error (.invalid (.unknownType start))) ∧
    ((∃ node, s.tree.node? last = some node ∧ s.sizeOf name = .ok node.body.statedSize) ∨
      (s.tree.node? last = none ∧ s.sizeOf name = .error (.dangling last) ∧
        ∃ start, Relation.ReflTransGen s.tree.RefersTo start last ∧
          s.tree.sizeOf name = .error (.invalid (.unknownType start)))) := by
  have hmapping := sizeOf_of_chainEnds h hlinks
  have htree := sizeAt_sizeOf h
  generalize s.tree.sizeOf name = found at htree ⊢
  rw [Setting.node] at hmapping
  cases htree with
  | @stated node hnode =>
    rw [hnode] at hmapping
    rw [show s.sizeOf name = .ok node.body.statedSize from hmapping]
    refine ⟨fun size => ?_, ⟨?_, ?_⟩, .inl ⟨node, hnode, rfl⟩⟩
    · rw [Except.ok.injEq, Except.ok.injEq]
    · rintro ⟨type, hmissing⟩
      cases hmissing
    · rintro ⟨start, hunknown⟩
      cases hunknown
  | @missing start hnone hstart =>
    rw [hnone] at hmapping
    rw [show s.sizeOf name = .error (.dangling last) from hmapping]
    refine ⟨fun size => ⟨?_, ?_⟩, ⟨fun _ => ⟨start, rfl⟩, fun _ => ⟨last, rfl⟩⟩,
      .inr ⟨hnone, rfl, start, hstart, rfl⟩⟩
    · intro hsize
      cases hsize
    · intro hsize
      cases hsize

/-- Typedefs and enumerations in turn, once over an integer type and once over nothing. -/
def signals : Setting := ⟨⟨"signals.h", 64, [
  ⟨"unsigned int", .primitive 4 4, none⟩,
  ⟨"word", .typedef ("unsigned int"), none⟩,
  ⟨"level", .enumeration "word" [⟨"LOW", 0, none⟩, ⟨"HIGH", 1, none⟩], none⟩,
  ⟨"signal", .typedef ("level"), none⟩,
  ⟨"flags", .typedef ("mask"), none⟩,
  ⟨"mode", .enumeration "flags" [⟨"OPEN", 0, none⟩], none⟩,
  ⟨"gate", .typedef ("mode"), none⟩]⟩, ⟨"Signals", [], [], none⟩⟩

/-- The one name has four bytes in both. The other ends at a type that the mapping misses, where the tree
has the typedef over it that does not resolve. -/
theorem sizeOf_agrees_signals :
    (ChainEnds signals.tree 3 "signal" "unsigned int" ∧ signals.sizeOf "signal" = .ok 4 ∧
      signals.tree.sizeOf "signal" = .ok 4) ∧
    ChainEnds signals.tree 3 "gate" "mask" ∧ signals.sizeOf "gate" = .error (.dangling "mask") ∧
      ∃ start, signals.tree.sizeOf "gate" = .error (.invalid (.unknownType start)) := by
  have hsignal : ChainEnds signals.tree 3 "signal" "unsigned int" :=
    .link rfl (.link rfl (.link rfl (.here (by decide))))
  have hgate : ChainEnds signals.tree 3 "gate" "mask" :=
    .link rfl (.link rfl (.link rfl (.here (by decide))))
  have hsize : signals.sizeOf "signal" = .ok 4 := by decide
  have hmissing : signals.sizeOf "gate" = .error (.dangling "mask") := by decide
  refine ⟨⟨hsignal, hsize, ?_⟩, hgate, hmissing, ?_⟩
  · exact ((sizeOf_agrees hsignal (by decide)).1 4).mp hsize
  · exact (sizeOf_agrees hgate (by decide)).2.1.mp ⟨"mask", hmissing⟩

end CInterop.Mapping
