import CInterop.Mapping

/-!
# Spellings of types

A type is spelled by a base and a star for every pointer to it. Which bases may occur is a matter of
the declarations around the spelling: besides the types of the language and the targets of aliases,
the names that are declared, or will be once every node has had its turn.

Mapping one thing keeps to such spellings. This is stated by a judgment on outcomes, `Meets`, with a
rule for each way in which outcomes are combined.
-/

namespace CInterop

/-- The spellings of types that a declaration makes use of. -/
def Binding.Body.typeNames : Binding.Body → List String
  | .function result parameters _ => result.name :: parameters.map (·.type.name)
  | .functionPointer result parameters _ => result.name :: parameters.map (·.type.name)
  | .struct fields _ _ => fields.map (·.type.name)
  | .enumeration integerType _ => [integerType.name]
  | .aliasStruct underlying => [underlying.name]
  | .fixedBuffer element _ _ => [element.name]
  | .global _ type => [type.name]
  | .incomplete | .constant .. => []

namespace Mapping

open Header
open Binding (escape IntegerType)

/-! ## What a base may be -/

/-- The types of the language that stand for C primitives and for ignored types. -/
def builtins : List String :=
  ["void", "byte", "sbyte", "short", "ushort", "int", "uint", "long", "ulong", "Int128", "UInt128",
    "float", "double", "char", "IntPtr"]

/-- The text is a base followed by stars, where the base is a type of the language, the target of an
alias, or available otherwise. -/
def SpelledOver (policy : Policy) (available : String → Prop) (text : String) : Prop :=
  ∃ base stars, text = base ++ String.ofList (List.replicate stars '*') ∧
    (base ∈ builtins ∨ (∃ source, policy.aliasFor? source = some base) ∨ available base)

section

variable {policy : Policy} {available : String → Prop} {base text : String}

theorem SpelledOver.of_builtin (h : base ∈ builtins) : SpelledOver policy available base :=
  ⟨base, 0, by simp, .inl h⟩

theorem SpelledOver.of_alias {source : String} (h : policy.aliasFor? source = some base) :
    SpelledOver policy available base :=
  ⟨base, 0, by simp, .inr (.inl ⟨source, h⟩)⟩

theorem SpelledOver.of_available (h : available base) : SpelledOver policy available base :=
  ⟨base, 0, by simp, .inr (.inr h)⟩

theorem SpelledOver.star (h : SpelledOver policy available text) :
    SpelledOver policy available (text ++ "*") := by
  obtain ⟨base, stars, rfl, hbase⟩ := h
  refine ⟨base, stars + 1, ?_, hbase⟩
  rw [String.append_assoc, List.replicate_succ', String.ofList_append]

theorem SpelledOver.mono {available' : String → Prop}
    (h : ∀ base, available base → available' base) (htext : SpelledOver policy available text) :
    SpelledOver policy available' text := by
  obtain ⟨base, stars, rfl, hbuiltin | halias | havailable⟩ := htext
  · exact ⟨base, stars, rfl, .inl hbuiltin⟩
  · exact ⟨base, stars, rfl, .inr (.inl halias)⟩
  · exact ⟨base, stars, rfl, .inr (.inr (h base havailable))⟩

end

/-! ## Types that stand for `void` -/

/-- The type of that name is spelled `void` wherever it is used: it is the C type itself, an alias
puts `void` in its place, or it is a typedef of such a type. -/
inductive StandsForVoid (s : Setting) : String → Prop where
  | aliased {name : String} {node : Declaration} :
      s.tree.node? name = some node → node.kind ≠ .pointer → node.kind ≠ .array →
      s.policy.ignores name = false → s.policy.aliasFor? name = some "void" → StandsForVoid s name
  | primitive {node : Declaration} {size align : Int} :
      s.tree.node? "void" = some node → node.body = .primitive size align →
      s.policy.ignores "void" = false → s.policy.aliasFor? "void" = none → StandsForVoid s "void"
  | typedef {name underlying : String} {node : Declaration} :
      s.tree.node? name = some node → node.body = .typedef underlying →
      s.policy.ignores name = false → s.policy.aliasFor? name = none →
      StandsForVoid s underlying → StandsForVoid s name

/-- The node is one that the binding has a type for: a type with a name of its own that is neither
ignored nor replaced, and does not stand for `void`. -/
structure Owed (s : Setting) (node : Declaration) : Prop where
  found : s.tree.node? node.name = some node
  isType : node.kind.isType = true
  notInline : isInline node = false
  notIgnored : s.policy.ignores node.name = false
  notAliased : s.policy.aliasFor? node.name = none
  notVoid : ¬ StandsForVoid s node.name

/-- The text is a spelling over declared names and names still owed. -/
abbrev Spelled (s : Setting) (names : List String) (text : String) : Prop :=
  SpelledOver s.policy (fun base => base ∈ names ∨ ∃ node, Owed s node ∧ escape node.name = base) text

theorem Spelled.mono {s : Setting} {names names' : List String} {text : String}
    (h : names ⊆ names') (htext : Spelled s names text) : Spelled s names' text :=
  SpelledOver.mono (fun _ => Or.imp_left (@h _)) htext

/-! ## A judgment on outcomes -/

/-- The names of the helpers that events declare. -/
def helperNames (events : List Event) : List String :=
  events.filterMap fun
    | .helper d => some d.name
    | _ => none

/-- The event reports no error, and a helper it declares is spelled over the given names. -/
def Event.Sound (s : Setting) (names : List String) : Event → Prop
  | .report d => d.severity ≠ .error
  | .reportOnce _ d => d.severity ≠ .error
  | .helper d => d.kind = .fixedBuffer ∧ ∀ text ∈ d.body.typeNames, Spelled s names text

theorem Event.Sound.mono {s : Setting} {names names' : List String} {event : Event}
    (h : names ⊆ names') (hevent : event.Sound s names) : event.Sound s names' := by
  cases event with
  | report d => exact hevent
  | reportOnce name d => exact hevent
  | helper d => exact ⟨hevent.1, fun text htext => (hevent.2 text htext).mono h⟩

/-- With helpers of the given names, the outcome has sound events and finds every type; a result it
has satisfies `post`, together with the names of all helpers there are then. -/
structure Meets {α : Type} (s : Setting) (known : List String) (x : Outcome α)
    (post : List String → α → Prop) : Prop where
  events : ∀ event ∈ x.events, event.Sound s (known ++ helperNames x.events)
  found : ∀ type, x.result ≠ .error (.dangling type)
  result : ∀ a, x.result = .ok a → post (known ++ helperNames x.events) a

namespace Meets

variable {α β : Type} {s : Setting} {known : List String}

theorem mono {x : Outcome α} {post post' : List String → α → Prop}
    (h : ∀ names a, known ⊆ names → post names a → post' names a) (hx : Meets s known x post) :
    Meets s known x post' :=
  ⟨hx.events, hx.found,
    fun a ha => h _ a (List.subset_append_left _ _) (hx.result a ha)⟩

theorem pure {a : α} {post : List String → α → Prop} (h : post known a) :
    Meets s known (pure a) post := by
  refine ⟨fun _ hevent => absurd hevent List.not_mem_nil, nofun, ?_⟩
  intro b hb
  cases hb
  show post (known ++ []) a
  rwa [List.append_nil]

theorem bind {x : Outcome α} {f : α → Outcome β} {post : List String → α → Prop}
    {post' : List String → β → Prop} (hx : Meets s known x post)
    (hf : ∀ names a, known ⊆ names → post names a → Meets s names (f a) post') :
    Meets s known (x >>= f) post' := by
  obtain ⟨events, result⟩ := x
  cases result with
  | error reason =>
    rw [Outcome.bind_error]
    exact ⟨hx.events, fun type h => hx.found type (by cases h; rfl), nofun⟩
  | ok a =>
    have hrest := hf _ a (List.subset_append_left _ _) (hx.result a rfl)
    have hnames : known ++ helperNames (events ++ (f a).events) =
        known ++ helperNames events ++ helperNames (f a).events := by
      rw [helperNames, List.filterMap_append, List.append_assoc]
      rfl
    rw [Outcome.bind_ok]
    refine ⟨fun event hevent => ?_, hrest.found, fun b hb => ?_⟩
    · show event.Sound s (known ++ helperNames (events ++ (f a).events))
      rw [hnames]
      rcases List.mem_append.mp hevent with hevent | hevent
      · exact (hx.events event hevent).mono (List.subset_append_left _ _)
      · exact hrest.events event hevent
    · show post' (known ++ helperNames (events ++ (f a).events)) b
      rw [hnames]
      exact hrest.result b hb

theorem emit {event : Event} {post : List String → Unit → Prop}
    (h : event.Sound s (known ++ helperNames [event]))
    (hpost : post (known ++ helperNames [event]) ()) :
    Meets s known (Outcome.emit event) post := by
  refine ⟨fun e he => ?_, nofun, fun _ _ => hpost⟩
  obtain rfl := List.mem_singleton.mp he
  exact h

theorem failed {failure : Failure} {post : List String → α → Prop} :
    Meets s known (Outcome.stop (.failed failure)) post :=
  ⟨fun _ hevent => absurd hevent List.not_mem_nil, nofun, nofun⟩

theorem ofExcept {x : Except Stop α} {post : List String → α → Prop}
    (hfound : ∀ type, x ≠ .error (.dangling type)) (h : ∀ a, x = .ok a → post known a) :
    Meets s known (Outcome.ofExcept x) post := by
  refine ⟨fun _ hevent => absurd hevent List.not_mem_nil, hfound, fun a ha => ?_⟩
  show post (known ++ []) a
  rw [List.append_nil]
  exact h a ha

end Meets

end Mapping
end CInterop
