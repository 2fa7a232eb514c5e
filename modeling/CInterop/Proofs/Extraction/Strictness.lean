import CInterop.Proofs.Extraction.Ignoring
import CInterop.Proofs.Extraction.Rollback

/-!
# Strict runs

A strict run is the other one, cut off behind the first report of a type that cannot be resolved. Whether
a run is strict is asked in one place only, where such a declaration was undone and reported. All other
steps are the same in both runs and report nothing of that kind, so that both runs are in the same state
until then.
-/

namespace CInterop.Extraction

open FrontEnd Header
open Macro (Candidate)

/-- The same wishes, with or without strictness. -/
def Setting.strictly (c : Setting) (isStrict : Bool) : Setting := { c with isStrict }

namespace Build

variable {α β : Type} {c : Setting} {b : Bool}

/-! ## Steps that do not ask -/

theorem fieldsWithin_strictly (resolve : TypeRef → Build String) (steps : Nat) :
    fieldsWithin (c.strictly b) resolve steps = fieldsWithin c resolve steps := by
  induction steps with
  | zero => rfl
  | succ steps ih =>
    funext t record start
    unfold fieldsWithin
    rw [ih]
    rfl

theorem resolveStep_strictly (resolve : TypeRef → Build String) (t : TypeRef) :
    resolveStep (c.strictly b) resolve t = resolveStep c resolve t := by
  have hrecord : record (c.strictly b) resolve t = record c resolve t := by
    unfold record fields
    rw [fieldsWithin_strictly]
    rfl
  unfold resolveStep
  rw [hrecord]
  rfl

theorem resolve_strictly (c : Setting) (b : Bool) : resolve (c.strictly b) = resolve c := by
  have hwithin (steps : Nat) : resolveWithin (c.strictly b) steps = resolveWithin c steps := by
    induction steps with
    | zero => rfl
    | succ steps ih =>
      funext t
      unfold resolveWithin
      rw [ih, resolveStep_strictly]
  funext t
  exact congrFun (hwithin (referenceLimit c)) t

theorem function_strictly (e : Entity) : function (c.strictly b) e = function c e := by
  have hparameter : parameter (c.strictly b) = parameter c := by
    funext r
    unfold parameter
    rw [resolve_strictly]
    rfl
  unfold function
  rw [resolve_strictly, hparameter]
  rfl

theorem global_strictly (e : Entity) : global (c.strictly b) e = global c e := by
  unfold global
  rw [resolve_strictly]
  rfl

theorem typedef_strictly (e : Entity) :
    typedef (c.strictly b) (resolve (c.strictly b)) e = typedef c (resolve c) e := by
  rw [resolve_strictly]
  rfl

theorem screenAll_strictly (screened : List (Candidate × Option Macro.Expr.Objection)) :
    screenAll (c.strictly b) screened = screenAll c screened := by
  induction screened with
  | nil => rfl
  | cons first rest ih =>
    obtain ⟨m, objection?⟩ := first
    cases objection? with
    | some objection => exact congrArg (exclude c m objection.message >>= fun _ => ·) ih
    | none => exact congrArg (· >>= fun kept => pure (m :: kept)) ih

theorem judgeAll_strictly {types : TypeRegistry} (constants : List Declaration) (line : Nat)
    (ms : List Candidate) :
    judgeAll (c.strictly b) types constants line ms = judgeAll c types constants line ms := by
  induction ms generalizing constants line with
  | nil => rfl
  | cons m rest ih =>
    unfold judgeAll
    simp only [ih]
    rfl

theorem settleMacros_strictly : settleMacros (c.strictly b) = settleMacros c := by
  have htypes : typeRegistry (c.strictly b) = typeRegistry c := by
    unfold typeRegistry
    rw [resolve_strictly]
    rfl
  have hconstants (candidates : List Candidate) :
      constants (c.strictly b) (typeRegistry c) candidates =
        constants c (typeRegistry c) candidates := by
    unfold constants
    simp only [screenAll_strictly, judgeAll_strictly]
    rfl
  unfold settleMacros judgeMacros
  rw [htypes]
  simp only [hconstants]

/-! ## Two steps side by side -/

/-- The state that a result leaves. -/
def left : EStateM.Result Stop State α → State
  | .ok _ s | .error _ s => s

/-- What comes of a strict step and of the other one from the same state: the same, and no type was
reported that cannot be resolved; or the strict step stops with the report of the first such type, and
the other one told as much and went on. -/
inductive CutFrom (s : State) : EStateM.Result Stop State α → EStateM.Result Stop State α → Prop where
  | same {r : EStateM.Result Stop State α} :
      Tells (·.isUnresolved = false) s (left r) → CutFrom s r r
  | cut {r : EStateM.Result Stop State α} {s' : State} {before : List Diagnostic} {d : Diagnostic}
      (rest : List Diagnostic) : (∀ other ∈ before, other.isUnresolved = false) → d.isUnresolved = true →
      s'.diagnostics = s.diagnostics ++ before ++ [d] →
      (left r).diagnostics = s.diagnostics ++ before ++ d :: rest →
      CutFrom s (.error (.failed (.unresolvedType d.cause.summary)) s') r

/-- The strict step is the other one cut off, wherever they start. -/
def Cuts (strict lenient : Build α) : Prop := ∀ s, CutFrom s (strict s) (lenient s)

theorem CutFrom.tells {s : State} {r r' : EStateM.Result Stop State α} (h : CutFrom s r r') :
    Tells (fun _ => True) s (left r') := by
  cases h with
  | same htells => exact htells.mono fun _ _ => trivial
  | cut _ _ _ _ hlenient =>
    exact ⟨_, by rw [hlenient, List.append_assoc], fun _ _ => trivial⟩

/-- What was told before does not matter. -/
theorem CutFrom.after {s s' : State} {r r' : EStateM.Result Stop State α} (h : CutFrom s' r r')
    (htells : Tells (·.isUnresolved = false) s s') : CutFrom s r r' := by
  cases h with
  | same htells' => exact .same (htells.trans htells')
  | cut rest hbefore hd hstrict hlenient =>
    obtain ⟨own, hown, hquiet⟩ := htells
    refine .cut rest (List.forall_mem_append.mpr ⟨hquiet, hbefore⟩) hd ?_ ?_
    · rw [hstrict, hown, List.append_assoc s.diagnostics]
    · rw [hlenient, hown, List.append_assoc s.diagnostics]

namespace Cuts

variable {x x' : Build α}

theorem of_telling (h : Telling (·.isUnresolved = false) x) : Cuts x x := fun s => .same (h s)

theorem bind {f f' : α → Build β} (hx : Cuts x x') (hf : ∀ a, Cuts (f a) (f' a)) :
    Cuts (x >>= f) (x' >>= f') := by
  intro s
  show CutFrom s (EStateM.bind x f s) (EStateM.bind x' f' s)
  unfold EStateM.bind
  have hs := hx s
  generalize x s = r at hs
  generalize x' s = r' at hs
  cases hs with
  | same htells =>
    cases r with
    | ok a s' => exact (hf a s').after htells
    | error stop s' => exact .same htells
  | @cut _ s' before d rest hbefore hd hstrict hlenient =>
    cases r' with
    | ok a s'' =>
      -- what the other run tells later comes behind the report
      obtain ⟨own, hown, -⟩ := (hf a s'').tells
      refine .cut (rest ++ own) hbefore hd hstrict ?_
      have hfirst : s''.diagnostics = s.diagnostics ++ before ++ d :: rest := hlenient
      show (left (f' a s'')).diagnostics = _
      rw [hown, hfirst, List.append_assoc, List.cons_append]
    | error stop s'' => exact .cut rest hbefore hd hstrict hlenient

theorem forM {f f' : α → Build Unit} (hf : ∀ a, Cuts (f a) (f' a)) (as : List α) :
    Cuts (as.forM f) (as.forM f') := by
  induction as with
  | nil => exact .of_telling (.pure _)
  | cons a rest ih => exact (hf a).bind fun _ => ih

/-- Strictness cuts a declaration that cannot be resolved. -/
theorem declaration {body : Build α} (e : Entity) (h : Telling (·.isUnresolved = false) body) :
    Cuts (Build.declaration (c.strictly true) e body) (Build.declaration (c.strictly false) e body) := by
  intro s
  have hs := h s
  unfold Build.after at hs
  unfold Build.declaration
  cases hresult : body s with
  | ok a s' =>
    rw [hresult] at hs
    exact .same hs
  | error stop s' =>
    rw [hresult] at hs
    cases stop with
    | failed failure => exact .same hs
    | unresolved spelling =>
      obtain ⟨own, hown, hquiet⟩ := hs
      have hboth : s'.diagnostics ++
          [⟨.unresolvedType spelling e.spelling, some (c.placeText e)⟩] = s.diagnostics ++ own ++
          [⟨.unresolvedType spelling e.spelling, some (c.placeText e)⟩] := congrArg (· ++ _) hown
      exact .cut (d := ⟨.unresolvedType spelling e.spelling, some (c.placeText e)⟩) [] hquiet rfl
        hboth hboth

end Cuts

/-! ## The steps of a tree -/

/-- Reporting no type that cannot be resolved passes to steps one after another. -/
theorem composes_resolved : Composes (Telling (·.isUnresolved = false)) := ⟨.pure, .bind⟩

theorem telling_collectMacro (e : Entity) : Telling (·.isUnresolved = false) (collectMacro c e) := by
  unfold collectMacro
  split
  · exact .pure _
  split
  · exact .pure _
  split
  · exact telling_report _ rfl
  dsimp only
  split
  · exact .pure _
  · refine .modify fun s => ?_
    split
    · split <;> rfl
    · rfl

theorem telling_nameTagsByTypedefs : Telling (·.isUnresolved = false) (nameTagsByTypedefs c) :=
  admits_telling.nameTagsByTypedefs.mono fun _ => Diagnostic.isUnresolved_of_isRemark

theorem telling_settleMacros : Telling (·.isUnresolved = false) (settleMacros c) := by
  have hexclude (m : Candidate) (reason : String) :
      Telling (·.isUnresolved = false) (exclude c m reason) :=
    (telling_detail c _).bind fun _ => telling_report _ rfl
  have hresolve (t : TypeRef) : Telling (·.isUnresolved = false) (attempt (resolve c t)) :=
    telling_attempt ((telling_resolve c t).mono fun _ => Diagnostic.isUnresolved_of_isRemark)
  have hconstants (candidates : List Candidate) : Telling (·.isUnresolved = false)
      (constants c (typeRegistry c) candidates) :=
    composes_resolved.constants (fun _ => .throw _) (telling_detail c) (fun _ => .modify fun _ => rfl)
      hexclude (telling_stringType c) hresolve candidates
  unfold settleMacros
  refine Telling.get.bind fun s => ?_
  refine (composes_resolved.judgeMacros .get (fun _ _ _ => telling_report _ rfl) hconstants).bind
    fun accepted => composes_resolved.forM fun m _ => ?_
  unfold settle
  split
  · exact telling_declare _
  · refine .modify fun s => ?_
    split <;> rfl

theorem telling_openHeader : Telling (·.isUnresolved = false) (openHeader c) := by
  have hpass (messages : List Message) : Telling (·.isUnresolved = false) (passOn messages) := by
    refine (composes_resolved.forM fun m _ => ?_).bind fun _ => ?_
    · exact .bind (.modify fun _ => rfl) fun _ s => ⟨_, rfl, List.forall_mem_singleton.mpr rfl⟩
    · dsimp only
      split
      · exact .throw _
      · exact .pure _
  unfold openHeader
  refine (telling_say _).bind fun _ => (telling_say _).bind fun _ => ?_
  refine .bind (.modify fun _ => rfl) fun _ => ?_
  dsimp only
  split
  · refine (Telling.throw _).bind fun _ => ?_
    split
    · exact .bind (.modify fun _ => rfl) fun _ => hpass _
    · exact hpass _
  · split
    · exact .bind (.modify fun _ => rfl) fun _ => hpass _
    · exact hpass _

theorem cuts_visitKind (e : Entity) :
    Cuts (visitKind (c.strictly true) e) (visitKind (c.strictly false) e) := by
  have htag (h : e.kind.isRecord = true ∨ e.kind = .enumeration) :
      Cuts (Build.declaration (c.strictly true) e (resolve (c.strictly true) e.type))
        (Build.declaration (c.strictly false) e (resolve (c.strictly false) e.type)) := by
    rw [resolve_strictly, resolve_strictly]
    exact .declaration e (telling_handles (c := c) (.tag h))
  unfold visitKind
  cases hkind : e.kind with
  | function =>
    dsimp only
    rw [function_strictly, function_strictly]
    exact .declaration e (telling_handles (.function hkind))
  | global =>
    dsimp only
    rw [global_strictly, global_strictly]
    exact .declaration e (telling_handles (.global hkind))
  | struct | union =>
    refine Cuts.bind (.of_telling .get) fun s => ?_
    split
    · exact .of_telling (.pure _)
    · exact htag (.inl (by rw [hkind]; rfl))
  | enumeration => exact htag (.inr hkind)
  | typedef =>
    dsimp only
    rw [typedef_strictly, typedef_strictly]
    exact .declaration e (telling_handles (.typedef hkind))
  | constant => exact .of_telling (telling_collectMacro (c := c) e)
  | enumerator | other => exact .of_telling (.pure _)

theorem cuts_visit (e : Entity) :
    Cuts (visit (c.strictly true) e) (visit (c.strictly false) e) := by
  unfold visit
  by_cases hown : (e.file.isNone || e.isInSystemHeader) = true
  · rw [if_pos hown, if_pos hown]
    exact .of_telling (.pure _)
  rw [if_neg hown, if_neg hown]
  by_cases hignored : c.ignores e = true
  · have hboth (b : Bool) : (c.strictly b).ignores e = true := hignored
    rw [if_pos (hboth true), if_pos (hboth false)]
    exact .of_telling (telling_detail c _)
  · have hboth (b : Bool) : ¬(c.strictly b).ignores e = true := hignored
    rw [if_neg (hboth true), if_neg (hboth false)]
    exact cuts_visitKind e

/-- Reading a header strictly is reading it, cut off. -/
theorem cuts_extraction (c : Setting) :
    Cuts (extraction (c.strictly true)) (extraction (c.strictly false)) := by
  refine Cuts.bind (.of_telling (telling_openHeader (c := c))) fun _ => ?_
  refine Cuts.bind (.of_telling (telling_nameTagsByTypedefs (c := c))) fun _ => ?_
  refine Cuts.bind (.forM cuts_visit c.translation.topLevel) fun _ => ?_
  rw [settleMacros_strictly, settleMacros_strictly]
  refine Cuts.bind (.of_telling telling_settleMacros) fun _ => ?_
  exact Cuts.bind (.of_telling .get) fun _ => .of_telling (.pure _)

end Build

/-! ## Whole runs -/

/-- The first element that passes a test is known by what comes before it. -/
theorem first_unique {ds before before' after after' : List Diagnostic} {d d' : Diagnostic}
    (h : ds = before ++ d :: after) (h' : ds = before' ++ d' :: after')
    (hbefore : ∀ other ∈ before, other.isUnresolved = false) (hd : d.isUnresolved = true)
    (hbefore' : ∀ other ∈ before', other.isUnresolved = false) (hd' : d'.isUnresolved = true) :
    before = before' ∧ d = d' := by
  have hfirst (before after : List Diagnostic) (d : Diagnostic)
      (hbefore : ∀ other ∈ before, other.isUnresolved = false) (hd : d.isUnresolved = true) :
      (before ++ d :: after).takeWhile (!·.isUnresolved) = before := by
    rw [List.takeWhile_append_of_pos (by simpa using hbefore),
      List.takeWhile_cons_of_neg (by simpa using hd), List.append_nil]
  have hsame : before = before' := by
    rw [← hfirst before after d hbefore hd, ← h, h', hfirst before' after' d' hbefore' hd']
  subst hsame
  have hrest := List.append_cancel_left (h.symm.trans h')
  exact ⟨rfl, (List.cons.inj hrest).1⟩

/-- A run that does not come to its steps tells nothing, whether it is strict or not. -/
theorem run_invalid {options : Options} {directory : String} {isFile : Bool}
    {translation : Translation}
    (h : ¬ (isFile = true ∧ (options.bitness = 32 ∨ options.bitness = 64))) :
    run { options with isStrict := true } directory isFile translation =
        run { options with isStrict := false } directory isFile translation ∧
      (run { options with isStrict := false } directory isFile translation).diagnostics = [] := by
  have hbitness (b : Bool) : Options.bitness { options with isStrict := b } = options.bitness := rfl
  cases harguments : arguments options.bitness options.includeDirs options.defines options.extra with
  | error cause => simp only [run, hbitness, harguments, and_self]
  | ok args =>
    obtain rfl : isFile = false := by
      rw [← Bool.not_eq_true]
      exact fun hfile => h ⟨hfile, bitness_of_arguments harguments⟩
    simp only [run, hbitness, harguments, Bool.not_false, if_true, and_self]

/-- A strict run is as one that is not, if that one reports no type that cannot be resolved. Otherwise it
fails with what the first such report says, and has told as much as the other one until then. -/
theorem run_strict (options : Options) (directory : String) (isFile : Bool)
    (translation : Translation) :
    ((∀ d ∈ (run { options with isStrict := false } directory isFile translation).diagnostics,
        d.isUnresolved = false) →
      run { options with isStrict := true } directory isFile translation =
        run { options with isStrict := false } directory isFile translation) ∧
    ∀ before d after,
      (run { options with isStrict := false } directory isFile translation).diagnostics =
        before ++ d :: after →
      (∀ other ∈ before, other.isUnresolved = false) → d.isUnresolved = true →
      (run { options with isStrict := true } directory isFile translation).tree =
        .error (.unresolvedType d.cause.summary) ∧
      (run { options with isStrict := true } directory isFile translation).diagnostics =
        before ++ [d] := by
  by_cases hvalid : isFile = true ∧ (options.bitness = 32 ∨ options.bitness = 64)
  · obtain ⟨rfl, hbitness⟩ := hvalid
    have hrun (b : Bool) : run { options with isStrict := b } directory true translation =
        outcome (Build.extraction ((options.setting directory translation).strictly b) {}) :=
      run_eq rfl hbitness
    rw [hrun true, hrun false]
    -- both runs start from the same state, in which nothing was told
    have hcut := Build.cuts_extraction (options.setting directory translation) {}
    have hdiagnostics (r : EStateM.Result Stop State Declarations) :
        (outcome r).diagnostics = (Build.left r).diagnostics := by
      cases r <;> rfl
    rw [hdiagnostics, hdiagnostics]
    generalize Build.extraction ((options.setting directory translation).strictly true) {} = strict
      at hcut
    generalize Build.extraction ((options.setting directory translation).strictly false) {} = lenient
      at hcut
    cases hcut with
    | same htells =>
      obtain ⟨own, hown, hresolved⟩ := htells
      refine ⟨fun _ => rfl, fun before d after hsplit _ hd => ?_⟩
      have hmem : d ∈ own := by
        rw [hsplit] at hown
        have hown' : before ++ d :: after = own := hown
        exact hown' ▸ List.mem_append_right _ List.mem_cons_self
      rw [hresolved d hmem] at hd
      cases hd
    | @cut _ s' first d' rest hfirst hd' hstrict hlenient =>
      have hstrict' : s'.diagnostics = first ++ [d'] := hstrict
      have hlenient' : (Build.left lenient).diagnostics = first ++ d' :: rest := hlenient
      refine ⟨fun hnone => ?_, fun before d after hsplit hbefore hd => ?_⟩
      · rw [hnone d' (hlenient' ▸ List.mem_append_right _ List.mem_cons_self)] at hd'
        cases hd'
      · obtain ⟨rfl, rfl⟩ := first_unique hsplit hlenient' hbefore hd hfirst hd'
        exact ⟨rfl, hstrict'⟩
  · obtain ⟨hsame, hnone⟩ := run_invalid hvalid
    rw [hnone]
    exact ⟨fun _ => hsame, fun before d after h => by cases before <;> cases h⟩

/-- Read strictly, the header with the other file fails at the function that is undone otherwise, with the
announcement before it and without the one after it. -/
theorem run_strict_vaultHeader :
    ∃ before d after, (run vaultOptions "/work" true vaultHeader).diagnostics = before ++ d :: after ∧
      before.map (·.announced?) = [some "blob"] ∧ after.map (·.announced?) = [some "blob_t"] ∧
      (run { vaultOptions with isStrict := true } "/work" true vaultHeader).tree =
        .error (.unresolvedType
          "The type 'v4' used by 'mix' could not be resolved; the declaration was skipped.") ∧
      (run { vaultOptions with isStrict := true } "/work" true vaultHeader).diagnostics =
        before ++ [d] := by
  have htold : (run vaultOptions "/work" true vaultHeader).diagnostics =
      [⟨.ignoredTypeUsed "blob" "belongs to the ignored file 'vault.h'", some "vault.h:1"⟩] ++
      ⟨.unresolvedType "v4" "mix", some "test.h:2"⟩ ::
      [⟨.ignoredTypeUsed "blob_t" "belongs to the ignored file 'vault.h'", some "vault.h:2"⟩] := by
    decide +kernel
  obtain ⟨htree, hdiagnostics⟩ := (run_strict vaultOptions "/work" true vaultHeader).2 _ _ _ htold
    (by decide) rfl
  exact ⟨_, _, _, htold, rfl, rfl, htree.trans (congrArg _ (by decide +kernel)), hdiagnostics⟩

end CInterop.Extraction
