import CInterop.Proofs.Mapping.Accounting

/-!
# What constants mention

The value of a constant is the expression of its macro, in which other macros are mentioned by their C
names. A macro that is mentioned is declared under that name itself, unless the name is reserved or the
policy decides otherwise about the macro, or a reason why it is not declared is reported.
-/

namespace CInterop.Mapping

open Header
open Binding (escape keywords)
open Macro (Expr)

/-- Every name in the value of a macro is that of a macro. -/
def MacrosClosed (t : Declarations) : Prop :=
  ∀ node ∈ t.nodes, ∀ type value e, node.body = .constant type value →
    Expr.ofText? value = some e →
    ∀ name ∈ e.identifiers, ∃ other ∈ t.nodes, other.name = name ∧ other.kind = .constant

/-- The constant has the value of the expression, written for the type of the constant. -/
def Holds (d : Binding.Declaration) (e : Expr) : Prop :=
  ∃ type text, d.body = .constant type text ∧ e.renderConstant type = .ok text

section

variable {s : Setting} {node : Declaration} {d : Binding.Declaration}

theorem holds_of_constantOf {type value typeName : String}
    (h : (match constantTypes.contains typeName, Expr.ofText? value with
      | true, some e =>
        match e.renderConstant typeName with
        | .ok text => return some (fromNode node "MacroDefinition" (.constant typeName text))
        | .error _ => Outcome.stop (.failed (.fault .literal))
      | _, _ => do
        reportUnmappable node node.name
          s!"a constant of C type '{type}' has no C# constant form"
        return none).result = .ok (some d)) :
    ∃ e, Expr.ofText? value = some e ∧ Holds d e := by
  split at h
  · rename_i e _ hread
    split at h
    · rename_i text htext
      cases h
      exact ⟨e, hread, typeName, text, rfl, htext⟩
    · cases h
  · cases h

/-- A constant has the value of its macro. -/
theorem holds_of_constant? {type value : String}
    (h : (constant? s node type value).result = .ok (some d)) :
    ∃ e, Expr.ofText? value = some e ∧ Holds d e := by
  obtain ⟨target, -, hrest, -⟩ := Outcome.bind_eq_ok h
  split at hrest
  · exact holds_of_constantOf hrest
  · obtain ⟨u, -, hrest, -⟩ := Outcome.bind_eq_ok hrest
    exact holds_of_constantOf hrest

/-- What is declared as a constant comes from a macro and has its value. -/
theorem holds_of_declared? (h : declared? s node = some d) (hkind : d.kind = .constant) :
    ∃ type value e, node.body = .constant type value ∧ Expr.ofText? value = some e ∧ Holds d e := by
  have hstands := standsFor_of_declared? h
  have hresult := declaration?_of_declared? h
  have hnode := hstands.kind
  rw [hkind, Node.kind] at hnode
  cases hbody : node.body <;> rw [hbody] at hnode <;> try cases hnode
  case constant type value =>
    rw [declaration?, hbody] at hresult
    obtain ⟨e, hread, hholds⟩ := holds_of_constant? hresult
    exact ⟨type, value, e, rfl, hread, hholds⟩

variable {b : Binding.Bindings}

/-- A macro that is mapped is declared, or it is reported why it is not. -/
theorem constant_or_reported (hnames : s.tree.names.Nodup) (hrun : (run s).bindings = .ok b)
    (hnode : node ∈ s.tree.nodes) (hkind : node.kind = .constant)
    (hignored : s.policy.ignores node.name = false)
    (halias : s.policy.aliasFor? node.name = none) :
    (∃ d ∈ b.declarations, d.kind = .constant ∧ d.name = escape node.name) ∨
    ∃ d ∈ (run s).diagnostics,
      d.isUnmappable node.name = true ∨ d.isDanglingOf node.name = true := by
  have hmapped : isMapped s node = true := by
    rw [isMapped, isInline, hkind, hignored, halias]
    rfl
  cases hdeclared : declared? s node with
  | some d =>
    have hstands := standsFor_of_declared? hdeclared
    have hmem := (mem_ofNodes_iff hrun).mpr ⟨node, hnode, hdeclared⟩
    have hsort := hstands.kind
    rw [hkind] at hsort
    exact .inl ⟨d, List.mem_of_mem_filter hmem, (Option.some.inj hsort).symm, hstands.name⟩
  | none =>
    have htypedef : node.kind ≠ .typedef := by
      rw [hkind]
      decide
    exact .inr (reported_of_not_declared hnames hrun hnode hmapped htypedef hdeclared)

end

/-- Every constant of the binding has the value of a macro, and every name in it is that of a constant
of the binding, or belongs to a macro that is reserved in C# and declared with a mark before it, that the
policy ignores or replaces, or that is reported to have no counterpart. -/
theorem constants_mention {s : Setting} {b : Binding.Bindings} (hnames : s.tree.names.Nodup)
    (hclosed : MacrosClosed s.tree) (hrun : (run s).bindings = .ok b) :
    ∀ d ∈ b.declarations, d.kind = .constant →
      ∃ node ∈ s.tree.nodes, ∃ type value e,
        node.body = .constant type value ∧ d.name = escape node.name ∧
        Expr.ofText? value = some e ∧ Holds d e ∧
        ∀ name ∈ e.identifiers,
          (∃ other ∈ b.declarations, other.kind = .constant ∧ other.name = name) ∨
          (name ∈ keywords ∧
            ∃ other ∈ b.declarations, other.kind = .constant ∧ other.name = "@" ++ name) ∨
          s.policy.ignores name = true ∨ (s.policy.aliasFor? name).isSome = true ∨
          ∃ report ∈ (run s).diagnostics,
            report.isUnmappable name = true ∨ report.isDanglingOf name = true := by
  intro d hd hkind
  have hmem : d ∈ b.ofNodes := List.mem_filter.mpr ⟨hd, by rw [hkind]; rfl⟩
  obtain ⟨node, hnode, hdeclared⟩ := (mem_ofNodes_iff hrun).mp hmem
  obtain ⟨type, value, e, hbody, hread, hholds⟩ := holds_of_declared? hdeclared hkind
  refine ⟨node, hnode, type, value, e, hbody, (standsFor_of_declared? hdeclared).name, hread, hholds, ?_⟩
  intro name hname
  obtain ⟨other, hother, rfl, hsort⟩ := hclosed node hnode type value e hbody hread name hname
  by_cases hignored : s.policy.ignores other.name = true
  · exact .inr (.inr (.inl hignored))
  rw [Bool.not_eq_true] at hignored
  cases halias : s.policy.aliasFor? other.name with
  | some target => exact .inr (.inr (.inr (.inl rfl)))
  | none =>
    rcases constant_or_reported hnames hrun hother hsort hignored halias with
      ⟨found, hfound, hconstant, hcalled⟩ | hreported
    · unfold escape at hcalled
      split at hcalled
      · rename_i hkeyword
        exact .inr (.inl ⟨List.contains_iff_mem.mp hkeyword, found, hfound, hconstant, hcalled⟩)
      · exact .inl ⟨found, hfound, hconstant, hcalled⟩
    · exact .inr (.inr (.inr (.inr hreported)))

/-- Macros over each other, one of a reserved name and one that the policy ignores. -/
def flags : Setting where
  tree := ⟨"flags.h", 64, [
    ⟨"int", .primitive 4 4, none⟩,
    ⟨"LOW", .constant "int" "1", none⟩,
    ⟨"HIGH", .constant "int" "LOW << 4", none⟩,
    ⟨"checked", .constant "int" "HIGH | LOW", none⟩,
    ⟨"HIDDEN", .constant "int" "7", none⟩,
    ⟨"ALL", .constant "int" "checked + HIDDEN", none⟩]⟩
  policy := ⟨"Flags", [], ["HIDDEN"], none⟩

theorem constants_mention_flags :
    flags.tree.names.Nodup ∧ MacrosClosed flags.tree ∧
    ∃ b, (run flags).bindings = .ok b ∧
      b.declarations.map (fun d => (d.name, d.body)) =
        [("LOW", .constant "int" "1"), ("HIGH", .constant "int" "unchecked((int)((LOW<<4)))"),
          ("@checked", .constant "int" "unchecked((int)((HIGH|LOW)))"),
          ("ALL", .constant "int" "unchecked((int)((checked+HIDDEN)))")] ∧
      ∀ d ∈ b.declarations, d.kind = .constant →
        ∃ node ∈ flags.tree.nodes, ∃ type value e,
          node.body = .constant type value ∧ d.name = escape node.name ∧
          Expr.ofText? value = some e ∧ Holds d e ∧
          ∀ name ∈ e.identifiers,
            (∃ other ∈ b.declarations, other.kind = .constant ∧ other.name = name) ∨
            (name ∈ keywords ∧
              ∃ other ∈ b.declarations, other.kind = .constant ∧ other.name = "@" ++ name) ∨
            flags.policy.ignores name = true ∨ (flags.policy.aliasFor? name).isSome = true ∨
            ∃ report ∈ (run flags).diagnostics,
              report.isUnmappable name = true ∨ report.isDanglingOf name = true := by
  have hdistinct : flags.tree.names.Nodup := by decide +kernel
  have hclosed : MacrosClosed flags.tree := by
    -- which names the values hold, and which of them are macros
    have hnames : flags.tree.nodes.all (fun node => match node.body with
        | .constant _ value => match Expr.ofText? value with
          | some e => e.identifiers.all fun name =>
              flags.tree.nodes.any fun other => other.name = name && other.kind = .constant
          | none => true
        | _ => true) = true := by
      decide +kernel
    intro node hnode type value e hbody hread name hname
    have hvalue := List.all_eq_true.mp hnames node hnode
    rw [hbody] at hvalue
    dsimp only at hvalue
    rw [hread] at hvalue
    obtain ⟨other, hother, hfound⟩ := List.any_eq_true.mp (List.all_eq_true.mp hvalue name hname)
    rw [Bool.and_eq_true, decide_eq_true_eq, decide_eq_true_eq] at hfound
    exact ⟨other, hother, hfound.1, hfound.2⟩
  have hdeclared : (run flags).bindings.toOption.map
      (·.declarations.map fun d => (d.name, d.body)) =
        some [("LOW", .constant "int" "1"), ("HIGH", .constant "int" "unchecked((int)((LOW<<4)))"),
          ("@checked", .constant "int" "unchecked((int)((HIGH|LOW)))"),
          ("ALL", .constant "int" "unchecked((int)((checked+HIDDEN)))")] := by
    decide +kernel
  refine ⟨hdistinct, hclosed, ?_⟩
  cases hrun : (run flags).bindings with
  | error failure =>
    rw [hrun] at hdeclared
    cases hdeclared
  | ok b =>
    rw [hrun] at hdeclared
    exact ⟨b, rfl, Option.some.inj hdeclared, constants_mention hdistinct hclosed hrun⟩

end CInterop.Mapping
