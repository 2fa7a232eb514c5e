import CInterop.Extraction.TopLevel

/-!
# Properties of steps that are made of steps

A property that passes to steps one after another holds of the rules for types, declarations and macros
as soon as it holds of the single steps in them. Which single steps these are is told by a structure for
each sort of rules, from those that do nothing but compose to those that declare nodes.
-/

namespace CInterop

/-- Whether the diagnostic is a remark on something that was resolved all the same. -/
def Diagnostic.IsRemark (d : Diagnostic) : Prop :=
  match d.cause with
  | .ignoredTypeUsed .. | .unmappable .. | .nameCollision .. => True
  | _ => False

namespace Extraction.Build

open FrontEnd Header
open Macro (Candidate Expr)

variable {α β : Type} {c : Setting} {types : TypeRegistry}

/-- A property of steps that holds of values and passes to steps one after another. -/
structure Composes (P : ∀ {α : Type}, Build α → Prop) : Prop where
  pure : ∀ {α : Type} (a : α), P (pure a)
  bind : ∀ {α β : Type} {x : Build α} {f : α → Build β}, P x → (∀ a, P (f a)) → P (x >>= f)

namespace Composes

variable {P : ∀ {α : Type}, Build α → Prop}

theorem mapM_mem (hP : Composes P) {f : α → Build β} {as : List α} (hf : ∀ a ∈ as, P (f a)) :
    P (as.mapM f) := by
  induction as with
  | nil =>
    rw [List.mapM_nil]
    exact hP.pure _
  | cons a rest ih =>
    rw [List.forall_mem_cons] at hf
    rw [List.mapM_cons]
    exact hP.bind hf.1 fun _ => hP.bind (ih hf.2) fun _ => hP.pure _

theorem mapM (hP : Composes P) {f : α → Build β} (hf : ∀ a, P (f a)) (as : List α) :
    P (as.mapM f) :=
  hP.mapM_mem fun a _ => hf a

theorem forM (hP : Composes P) {f : α → Build Unit} {as : List α} (hf : ∀ a ∈ as, P (f a)) :
    P (as.forM f) := by
  induction as with
  | nil => exact hP.pure _
  | cons a rest ih =>
    rw [List.forall_mem_cons] at hf
    exact hP.bind hf.1 fun _ => ih hf.2

/-! ## Constants -/

/-- The types of constants are as those that they are looked up in. -/
theorem constantType? (hP : Composes P) (hstring : P types.stringType)
    (hresolve : ∀ t, P (types.resolveType t)) (t : TypeRef) : P (constantType? c types t) := by
  unfold Build.constantType?
  dsimp only
  split
  case h_1 | h_2 =>
    split
    · split
      · exact hP.bind hstring fun _ => hP.pure _
      · exact hP.pure _
    · exact hP.pure _
  case h_8 => exact hresolve _
  all_goals exact hP.pure _

theorem judge (hP : Composes P) (hstring : P types.stringType)
    (hresolve : ∀ t, P (types.resolveType t)) (constants : List String) (line : Nat) (m : Candidate) :
    P (judge c types constants line m) := by
  unfold Build.judge
  split
  · exact hP.pure _
  dsimp only
  split
  · exact hP.pure _
  split
  · refine hP.bind (hP.constantType? hstring hresolve _) fun type? => ?_
    cases type? with
    | none => exact hP.pure _
    | some type => exact hP.pure _
  · exact hP.pure _

theorem screenAll (hP : Composes P) (hexclude : ∀ m reason, P (exclude c m reason))
    (screened : List (Candidate × Option Expr.Objection)) : P (screenAll c screened) := by
  induction screened with
  | nil => exact hP.pure _
  | cons first rest ih =>
    obtain ⟨m, objection?⟩ := first
    cases objection? with
    | some objection => exact hP.bind (hexclude m _) fun _ => ih
    | none => exact hP.bind ih fun _ => hP.pure _

theorem judgeAll (hP : Composes P) (hdetail : ∀ line, P (detail c line))
    (hexclude : ∀ m reason, P (exclude c m reason)) (hstring : P types.stringType)
    (hresolve : ∀ t, P (types.resolveType t)) (constants : List Declaration) (line : Nat)
    (ms : List Candidate) : P (judgeAll c types constants line ms) := by
  induction ms generalizing constants line with
  | nil => exact hP.pure _
  | cons m rest ih =>
    unfold Build.judgeAll
    refine hP.bind (hP.judge hstring hresolve _ _ _) fun verdict => ?_
    split
    · exact hP.bind (hexclude m _) fun _ => ih _ _
    · exact hP.bind (hdetail _) fun _ => ih _ _

/-- The two passes over the macros are as the steps they consist of. -/
theorem constants (hP : Composes P) (hthrow : c.translation.typing.isReadable = false →
      P (throw (.failed (.unparsable (typingPath c))) : Build (List Declaration)))
    (hdetail : ∀ line, P (detail c line)) (hask : ∀ request, P (ask request))
    (hexclude : ∀ m reason, P (exclude c m reason)) (hstring : P types.stringType)
    (hresolve : ∀ t, P (types.resolveType t)) (candidates : List Candidate) :
    P (constants c types candidates) := by
  unfold Build.constants
  refine hP.bind (hP.screenAll hexclude _) fun screened => ?_
  split
  · exact hP.pure _
  dsimp only
  refine hP.bind (hdetail _) fun _ => hP.bind (hask _) fun _ => ?_
  split
  · rename_i hunreadable
    exact hthrow (by simpa using hunreadable)
  · exact hP.judgeAll hdetail hexclude hstring hresolve _ _ _

/-- Macros that are defined more than once are reported, and the others are looked through for
constants. -/
theorem judgeMacros (hP : Composes P) (hget : P (get : Build State))
    (hreport : ∀ name reason place, P (report (.macroNotConstant name reason) place))
    (hconstants : ∀ candidates, P (Build.constants c (typeRegistry c) candidates)) :
    P (judgeMacros c) := by
  unfold Build.judgeMacros
  exact hP.bind hget fun _ => hP.bind (hP.forM fun _ _ => hreport _ _ _) fun _ => hconstants _

end Composes

/-- Besides, the property holds of the steps that only look or speak. -/
structure Speaks (P : ∀ {α : Type}, Build α → Prop) : Prop extends Composes P where
  get : P (get : Build State)
  say : ∀ line, P (say line)
  unmappable : ∀ name reason place, P (report (.unmappable name reason) place)

namespace Speaks

variable {P : ∀ {α : Type}, Build α → Prop}

theorem detail (hP : Speaks P) (line : String) : P (detail c line) := by
  unfold Build.detail
  split
  · exact hP.say _
  · exact hP.pure _

theorem isReserved (hP : Speaks P) (name : String) : P (isReserved name) :=
  hP.bind hP.get fun _ => hP.pure _

/-! ## Declarations -/

theorem isTaken (hP : Speaks P) (e : Entity) (kind : Kind) : P (isTaken c e kind) := by
  unfold Build.isTaken
  refine hP.bind hP.get fun s => ?_
  dsimp only
  split
  · exact hP.pure _
  split
  · exact hP.bind (hP.unmappable _ _ _) fun _ => hP.pure _
  · exact hP.pure _

theorem function (hP : Speaks P) (h : ∀ t, P (resolve c t))
    {e : Entity}
    (hdeclare : ∀ node : Declaration, node.kind = .function → node.name = e.spelling →
      node.location = c.place? e → P (declare node)) : P (function c e) := by
  have hparameter (r : EntityRef) : P (parameter c r) := hP.bind (h _) fun _ => hP.pure _
  unfold Build.function
  refine hP.bind (hP.isTaken e .function) fun _ => ?_
  split
  · exact hP.pure _
  split
  · exact hP.detail _
  · exact hP.bind (hP.say _) fun _ => hP.bind (h _) fun _ =>
      hP.bind (hP.mapM hparameter _) fun _ => hdeclare _ rfl rfl rfl

theorem global (hP : Speaks P) (h : ∀ t, P (resolve c t))
    {e : Entity}
    (hdeclare : ∀ node : Declaration, node.kind = .global → node.name = e.spelling →
      node.location = c.place? e → P (declare node)) : P (global c e) := by
  unfold Build.global
  split
  · exact hP.pure _
  refine hP.bind (hP.isTaken e .global) fun _ => ?_
  split
  · exact hP.pure _
  · exact hP.bind (hP.say _) fun _ => hP.bind (h _) fun _ => hdeclare _ rfl rfl rfl

/-! ## Fields -/

/-- What a field with a name comes to once its tag is named. -/
theorem widthAndType (hP : Speaks P) {resolve : TypeRef → Build String} (h : ∀ t, P (resolve t))
    (record : String) (offset : Int) (field : Entity) : P (do
      match field.bitWidth with
      | some width =>
        report (.unmappable s!"{record}.{field.spelling}"
          s!"bit-field of width {width} is exposed as its storage unit") (c.placeText field)
      | none => Pure.pure ()
      let type ← resolve field.type
      return (⟨field.spelling, type, offset, max (c.type field.type).size 0⟩ : Field String Int)) := by
  have htype : P (do
      let type ← resolve field.type
      return (⟨field.spelling, type, offset, max (c.type field.type).size 0⟩ : Field String Int)) :=
    hP.bind (h _) fun _ => hP.pure _
  dsimp only
  split
  · exact hP.bind (hP.unmappable _ _ _) fun _ => htype
  · exact htype

end Speaks

/-- Besides, the property holds of the steps that stop at a type or name a tag. -/
structure Admits (P : ∀ {α : Type}, Build α → Prop) : Prop extends Speaks P where
  unresolved : ∀ {α : Type} (spelling : String), P (throw (.unresolved spelling) : Build α)
  nameTag : ∀ e name, P (nameTag e name)

namespace Admits

variable {P : ∀ {α : Type}, Build α → Prop}

section

variable {resolve : TypeRef → Build String}

theorem namedField (hP : Admits P) (h : ∀ t, P (resolve t)) (record : String) (offset : Int)
    (field : Entity) : P (namedField c resolve record offset field) := by
  have hrest := hP.widthAndType (c := c) h record offset field
  unfold Build.namedField
  dsimp only
  split
  · split
    · exact hP.bind (hP.nameTag _ _) fun _ => hrest
    · exact hrest
  · exact hrest

/-- The fields of a record are as the types of its fields, and as to run out of steps. -/
theorem fieldsWithin (hP : Admits P)
    (hend : P (throw (.failed (.fault .endlessTypes)) : Build (List (Field String Int))))
    (h : ∀ t, P (resolve t)) (steps : Nat) (t : TypeRef) (record : String) (start : Int) :
    P (fieldsWithin c resolve steps t record start) := by
  induction steps generalizing t start with
  | zero => exact hend
  | succ steps ih =>
    unfold Build.fieldsWithin
    refine hP.bind (hP.mapM (fun r => ?_) _) fun _ => hP.pure _
    dsimp only
    split
    · exact hP.bind (hP.namedField h _ _ _) fun _ => hP.pure _
    · exact ih _ _

end

/-- Naming the tags is as naming one. -/
theorem nameTagsByTypedefs (hP : Admits P) : P (nameTagsByTypedefs c) := by
  refine hP.forM fun e _ => ?_
  split
  · split
    · split
      · exact hP.nameTag _ _
      · exact hP.pure _
    · exact hP.pure _
  · exact hP.pure _

end Admits

/-- Besides composing, the property holds of what touches neither the registry nor what was told or asked,
and of remarks. -/
structure Remarks (P : ∀ {α : Type}, Build α → Prop) : Prop extends Composes P where
  get : P (get : Build State)
  aside : ∀ {g : State → State}, (∀ s, (g s).registry = s.registry ∧
    (g s).diagnostics = s.diagnostics ∧ (g s).requests = s.requests) → P (modify g)
  remark : ∀ (cause : Cause) (place : String), Diagnostic.IsRemark ⟨cause, some place⟩ →
    P (report cause place)

namespace Remarks

variable {P : ∀ {α : Type}, Build α → Prop}

theorem noteResolved (hP : Remarks P) (name : String) : P (noteResolved name) :=
  hP.aside fun _ => ⟨rfl, rfl, rfl⟩

theorem noteString (hP : Remarks P) (name : String) : P (noteString name) :=
  hP.aside fun _ => ⟨rfl, rfl, rfl⟩

theorem nameTag (hP : Remarks P) (e : Entity) (name : String) : P (nameTag e name) :=
  hP.aside fun s => by split <;> exact ⟨rfl, rfl, rfl⟩

theorem announceIgnored (hP : Remarks P) (e : Entity) (name : String) :
    P (announceIgnored c e name) := by
  unfold Build.announceIgnored
  refine hP.bind hP.get fun s => ?_
  split
  · exact hP.bind (hP.aside fun _ => ⟨rfl, rfl, rfl⟩) fun _ => hP.remark _ _ trivial
  · exact hP.pure _

theorem ownTagName (hP : Remarks P) (e : Entity) : P (ownTagName c e) := by
  unfold Build.ownTagName
  split
  · exact hP.pure _
  refine hP.bind hP.get fun s => ?_
  dsimp only
  split
  · exact hP.pure _
  · refine hP.bind (hP.aside fun _ => ⟨rfl, rfl, rfl⟩) fun _ => ?_
    exact hP.bind (hP.remark _ _ trivial) fun _ => hP.pure _

theorem admits (hP : Remarks P)
    (h : ∀ {α : Type} (spelling : String), P (throw (.unresolved spelling) : Build α)) : Admits P where
  toComposes := hP.toComposes
  get := hP.get
  say _ := hP.aside fun _ => ⟨rfl, rfl, rfl⟩
  unmappable _ _ place := hP.remark _ place trivial
  unresolved := h
  nameTag := hP.nameTag

end Remarks

/-- Besides, the property holds of the steps that bring types to the registry. -/
structure Registers (c : Setting) (P : ∀ {α : Type}, Build α → Prop) : Prop extends Admits P where
  reserve : ∀ name, P (reserve name)
  noteResolved : ∀ name, P (noteResolved name)
  announceIgnored : ∀ e name, P (announceIgnored c e name)
  ownTagName : ∀ e, P (ownTagName c e)
  declare : ∀ node : Declaration, node.kind ≠ .record → P (Build.declare node)
  /-- A record is declared with its fields, which come before it. -/
  declareRecord : ∀ {resolve : TypeRef → Build String}, (∀ t, P (resolve t)) →
    ∀ (e : Entity) (name : String), P (do
      let fields ← fields c resolve e.type name
      Build.declare ⟨name, .record (e.kind = .union) fields (max (c.type e.type).size 0)
        (max (c.type e.type).align 0), c.place? e⟩
      return name)

namespace Registers

variable {P : ∀ {α : Type}, Build α → Prop}

theorem declareOnce (hP : Registers c P) {node : Declaration} (hkind : node.kind ≠ .record) :
    P (declareOnce node) := by
  unfold Build.declareOnce
  refine hP.bind hP.get fun s => ?_
  split
  · exact hP.bind (hP.declare node hkind) fun _ => hP.pure _
  · exact hP.pure _

theorem tagName (hP : Registers c P) (e : Entity) : P (tagName c e) := by
  unfold Build.tagName
  refine hP.bind hP.get fun s => ?_
  split
  · exact hP.pure _
  split
  · exact hP.bind (hP.nameTag e _) fun _ => hP.pure _
  · exact hP.ownTagName e

theorem namesItsTag (hP : Registers c P) (e : Entity) : P (namesItsTag c e) := by
  unfold Build.namesItsTag
  split
  · exact hP.bind (hP.tagName _) fun _ => hP.pure _
  · exact hP.pure _

/-! ## Types -/

section

variable {resolve : TypeRef → Build String}

theorem functionPointer (hP : Registers c P) (h : ∀ t, P (resolve t)) (t : TypeRef) :
    P (functionPointer c resolve t) := by
  unfold Build.functionPointer
  refine hP.bind (h _) fun result => ?_
  dsimp only
  split
  · exact hP.bind (hP.mapM h _) fun _ => hP.declareOnce nofun
  · exact hP.bind (hP.pure _) fun _ => hP.declareOnce nofun

theorem pointer (hP : Registers c P) (h : ∀ t, P (resolve t)) (t : TypeRef) :
    P (pointer c resolve t) := by
  unfold Build.pointer
  dsimp only
  split
  · exact hP.functionPointer h _
  · exact hP.bind (h _) fun _ => hP.declareOnce nofun

theorem record (hP : Registers c P) (h : ∀ t, P (resolve t)) (t : TypeRef) :
    P (record c resolve t) := by
  unfold Build.record
  dsimp only
  refine hP.bind (hP.tagName _) fun name => hP.bind (hP.isReserved name) fun _ => ?_
  split
  · exact hP.pure _
  refine hP.bind (hP.announceIgnored _ name) fun _ => ?_
  split
  · exact hP.bind (hP.say _) fun _ => hP.bind (hP.declare _ nofun) fun _ => hP.pure _
  · exact hP.bind (hP.say _) fun _ => hP.bind (hP.reserve _) fun _ => hP.declareRecord h _ name

theorem enumeration (hP : Registers c P) (h : ∀ t, P (resolve t)) (t : TypeRef) :
    P (enumeration c resolve t) := by
  unfold Build.enumeration
  dsimp only
  refine hP.bind (hP.tagName _) fun name => hP.bind (hP.isReserved name) fun _ => ?_
  split
  · exact hP.pure _
  · exact hP.bind (hP.announceIgnored _ name) fun _ => hP.bind (hP.say _) fun _ =>
      hP.bind (hP.reserve _) fun _ => hP.bind (h _) fun _ =>
      hP.bind (hP.declare _ nofun) fun _ => hP.pure _

theorem typedef (hP : Registers c P) (h : ∀ t, P (resolve t)) (e : Entity) :
    P (typedef c resolve e) := by
  unfold Build.typedef
  dsimp only
  split
  · exact hP.declareOnce nofun
  refine hP.bind (hP.isReserved _) fun _ => ?_
  split
  · exact hP.pure _
  refine hP.bind (hP.namesItsTag e) fun _ => ?_
  split
  · exact h _
  · exact hP.bind (hP.announceIgnored e _) fun _ => hP.bind (hP.reserve _) fun _ =>
      hP.bind (h _) fun _ => hP.bind (hP.say _) fun _ =>
      hP.bind (hP.declare _ nofun) fun _ => hP.pure _

theorem resolveStep (hP : Registers c P) (h : ∀ t, P (resolve t)) (t : TypeRef) :
    P (resolveStep c resolve t) := by
  have hcanonical : P (canonicalForm c resolve t) := by
    unfold canonicalForm
    dsimp only
    split
    · exact hP.unresolved _
    · exact h _
  unfold Build.resolveStep
  dsimp only
  split
  · exact h _
  · exact hP.typedef h _
  · exact hP.pointer h t
  · exact hP.bind (h _) fun _ => hP.declareOnce nofun
  · exact hP.bind (h _) fun _ => hP.declareOnce nofun
  · exact hP.record h t
  · exact hP.enumeration h t
  · exact hP.functionPointer h t
  · exact hP.functionPointer h t
  · exact hP.declareOnce nofun
  all_goals exact hcanonical

end

/-- Resolving a type is as the steps it consists of, and as to run out of them. -/
theorem resolveWithin (hP : Registers c P)
    (hend : P (throw (.failed (.fault .endlessTypes)) : Build String)) (steps : Nat)
    (t : TypeRef) : P (resolveWithin c steps t) := by
  induction steps generalizing t with
  | zero => exact hend
  | succ steps ih =>
    unfold Build.resolveWithin
    exact hP.bind (hP.resolveStep ih t) fun name => hP.bind (hP.noteResolved name) fun _ => hP.pure _

theorem resolve (hP : Registers c P)
    (hend : P (throw (.failed (.fault .endlessTypes)) : Build String)) (t : TypeRef) :
    P (resolve c t) :=
  hP.resolveWithin hend _ t

theorem stringType (hP : Registers c P) (hnote : ∀ name, P (noteString name)) : P (stringType c) :=
  hP.bind (hP.declareOnce nofun) fun _ => hP.bind (hnote _) fun _ =>
    hP.bind (hP.declareOnce nofun) fun _ => hP.bind (hnote _) fun _ => hP.pure _

/-! ## The top level -/

/-- Another property, which a declaration has as a whole if its body has this one, holds of every entity
at the top level, as far as it holds of taking down a macro. -/
theorem visit (hP : Registers c P) {Q : ∀ {α : Type}, Build α → Prop} (hQ : Speaks Q)
    (h : ∀ t, P (Build.resolve c t))
    (hdeclaration : ∀ {α : Type} (e : Entity) {body : Build α}, P body → Q (declaration c e body))
    (hcollect : ∀ e, Q (collectMacro c e)) (e : Entity) : Q (visit c e) := by
  have htag : Q (declaration c e (Build.resolve c e.type)) := hdeclaration e (h _)
  unfold Build.visit
  split
  · exact hQ.pure _
  split
  · exact hQ.detail _
  unfold visitKind
  split
  · refine hdeclaration e (hP.function h fun node hkind _ _ => hP.declare node ?_)
    rw [hkind]
    decide
  · refine hdeclaration e (hP.global h fun node hkind _ _ => hP.declare node ?_)
    rw [hkind]
    decide
  case h_3 | h_4 =>
    refine hQ.bind hQ.get fun s => ?_
    split
    · exact hQ.pure _
    · exact htag
  · exact htag
  · exact hdeclaration e (hP.typedef h e)
  · exact hcollect e
  all_goals exact hQ.pure _

end Registers

end Extraction.Build
end CInterop
