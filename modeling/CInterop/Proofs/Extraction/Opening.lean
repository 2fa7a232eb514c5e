import CInterop.Extraction
import CInterop.Proofs.Extraction.Origins

/-!
# From the header to its tree

A run first has the front end read the header and passes its messages on. Where there is no error among
them, the tree is built from a state in which nothing else has happened, and what comes of it is what
comes of the run.
-/

namespace CInterop.Extraction

open FrontEnd Header

/-- What an extraction with these options depends on. -/
def Options.setting (o : Options) (directory : String) (translation : Translation) : Setting where
  translation
  header := Path.absolute directory o.header
  directory
  bitness := o.bitness
  arguments := (arguments o.bitness o.includeDirs o.defines o.extra).toOption.getD []
  rules := ⟨o.ignoredFiles⟩
  isStrict := o.isStrict
  isVerbose := o.isVerbose

/-- A message of the front end as it is passed on. -/
def forwarded (m : Message) : Diagnostic := ⟨.frontEnd m.severity m.shown, none⟩

/-- The messages of the front end were passed on, and nothing else has happened. -/
structure Opened (c : Setting) (s : State) : Prop where
  registry : s.registry = {}
  tagNames : s.tagNames = []
  tagRenames : s.tagRenames = []
  announced : s.announced = []
  candidates : s.candidates = []
  diagnostics : s.diagnostics = c.translation.header.messages.map forwarded

section

variable {c : Setting} {s₀ s : State} {t : Declarations}

theorem Opened.sound (h : Opened c s) : Sound c s := sound_of_empty h.registry h.tagRenames

/-- Every node of the tree of a header that was opened stems from something. -/
theorem Opened.stems (h : Opened c s₀) (htree : Build.tree c s₀ = .ok t s) :
    ∀ node ∈ t.nodes, Stems c s node := by
  obtain ⟨hcourse, rfl⟩ := course_of_tree h.sound htree
  intro node hnode
  rcases hcourse.nodes hnode with hold | hstems
  · rw [h.registry] at hold
    cases hold
  · exact hstems

end

namespace Build

variable {c : Setting} {s s' : State}

/-- Passes a message on. -/
def forward (m : Message) : Build Unit := do
  warn ("\t" ++ m.shown)
  modify fun s => { s with diagnostics := s.diagnostics ++ [forwarded m] }

/-- Passes all messages on; an error among them ends the run. -/
def passOn (messages : List Message) : Build Unit := do
  messages.forM forward
  let errors := messages.filter (·.isError)
  if !errors.isEmpty then throw (.failed (.frontEndErrors (errors.map (·.shown))))

theorem forM_forward (messages : List Message) (s : State) :
    ∃ errorOutput, messages.forM forward s =
      .ok () { s with errorOutput, diagnostics := s.diagnostics ++ messages.map forwarded } := by
  induction messages generalizing s with
  | nil => exact ⟨s.errorOutput, by rw [List.map_nil, List.append_nil]; rfl⟩
  | cons m rest ih =>
    obtain ⟨errorOutput, hrest⟩ := ih { s with
      errorOutput := s.errorOutput ++ ["\t" ++ m.shown ++ "\n"]
      diagnostics := s.diagnostics ++ [forwarded m] }
    refine ⟨errorOutput, hrest.trans ?_⟩
    rw [List.map_cons, List.append_assoc, List.singleton_append]

theorem passOn_eq_ok {messages : List Message} (h : passOn messages s = .ok () s') :
    ∃ errorOutput, s' = { s with
      errorOutput, diagnostics := s.diagnostics ++ messages.map forwarded } := by
  obtain ⟨errorOutput, hforward⟩ := forM_forward messages s
  obtain ⟨_, s₁, hmessages, hrest⟩ := Steps.bind_eq_ok h
  cases hforward.symm.trans hmessages
  dsimp only at hrest
  split at hrest
  · cases hrest
  · cases hrest
    exact ⟨errorOutput, rfl⟩

theorem passOn_eq_error {messages : List Message} {stop : Stop}
    (h : passOn messages s = .error stop s') : ∃ m ∈ messages, m.isError = true := by
  obtain ⟨errorOutput, hforward⟩ := forM_forward messages s
  rcases Steps.bind_eq_error h with hmessages | ⟨_, s₁, hmessages, hrest⟩
  · cases hforward.symm.trans hmessages
  · dsimp only at hrest
    split at hrest
    · rename_i herrors
      rw [Bool.not_eq_true', List.isEmpty_eq_false_iff] at herrors
      obtain ⟨m, hm⟩ := List.exists_mem_of_ne_nil _ herrors
      exact ⟨m, List.mem_filter.mp hm⟩
    · cases hrest

/-- A header that was opened leaves its messages and nothing else. -/
theorem openHeader_eq_ok (h : openHeader c {} = .ok () s) : Opened c s := by
  have hpassed {s₁ : State} (hs₁ : ∃ output errorOutput requests,
      s₁ = { output, errorOutput, requests })
      (h : passOn c.translation.header.messages s₁ = .ok () s) : Opened c s := by
    obtain ⟨output, errorOutput, requests, rfl⟩ := hs₁
    obtain ⟨errorOutput, rfl⟩ := passOn_eq_ok h
    exact ⟨rfl, rfl, rfl, rfl, rfl, rfl⟩
  unfold openHeader at h
  obtain ⟨_, _, hsay, h⟩ := Steps.bind_eq_ok h
  cases hsay
  obtain ⟨_, _, hsay, h⟩ := Steps.bind_eq_ok h
  cases hsay
  obtain ⟨_, _, hask, h⟩ := Steps.bind_eq_ok h
  cases hask
  dsimp only at h
  split at h
  · obtain ⟨_, _, hthrow, -⟩ := Steps.bind_eq_ok h
    cases hthrow
  split at h
  · obtain ⟨_, _, hwarn, h⟩ := Steps.bind_eq_ok h
    cases hwarn
    exact hpassed ⟨_, _, _, rfl⟩ h
  · exact hpassed ⟨_, _, _, rfl⟩ h

/-- A run ends before its tree only if the front end cannot read the header or reports an error. -/
theorem openHeader_eq_error {stop : Stop} (h : openHeader c s = .error stop s') :
    c.translation.header.isReadable = false ∨
      ∃ m ∈ c.translation.header.messages, m.isError = true := by
  unfold openHeader at h
  rcases Steps.bind_eq_error h with hsay | ⟨_, _, -, h⟩
  · cases hsay
  rcases Steps.bind_eq_error h with hsay | ⟨_, _, -, h⟩
  · cases hsay
  rcases Steps.bind_eq_error h with hask | ⟨_, _, -, h⟩
  · cases hask
  dsimp only at h
  split at h
  · rename_i hunreadable
    exact .inl (by simpa using hunreadable)
  split at h
  · rcases Steps.bind_eq_error h with hwarn | ⟨_, _, -, h⟩
    · cases hwarn
    · exact .inr (passOn_eq_error h)
  · exact .inr (passOn_eq_error h)

end Build

/-! ## Whole runs -/

theorem exists_arguments {bitness : Int} (hbitness : bitness = 32 ∨ bitness = 64)
    (includeDirs defines extra : List String) :
    ∃ args, arguments bitness includeDirs defines extra = .ok args := by
  unfold arguments
  rw [if_neg (by omega)]
  exact ⟨_, rfl⟩

/-- The arguments of the front end are those for one of two widths. -/
theorem bitness_of_arguments {bitness : Int} {includeDirs defines extra args : List String}
    (h : arguments bitness includeDirs defines extra = .ok args) : bitness = 32 ∨ bitness = 64 := by
  by_contra hnot
  unfold arguments at h
  rw [if_pos (not_or.mp hnot)] at h
  cases h

/-- What a run comes to when its steps have ended. -/
def outcome : EStateM.Result Stop State Declarations → Result
  | .ok tree s => s.result (.ok tree)
  | .error stop s => s.result (.error stop.failure)

section

variable {options : Options} {directory : String} {isFile : Bool} {translation : Translation}
  {c : Setting}

/-- A run with valid options is one of steps. -/
theorem run_eq (hc : c = options.setting directory translation)
    (hbitness : options.bitness = 32 ∨ options.bitness = 64) :
    run options directory true translation = outcome (Build.extraction c {}) := by
  obtain ⟨args, harguments⟩ :=
    exists_arguments hbitness options.includeDirs options.defines options.extra
  unfold run
  rw [harguments]
  subst hc
  unfold Options.setting
  rw [harguments]
  rfl

/-- A run that gives a tree has opened the header and built the tree from there. -/
theorem run_eq_ok (hc : c = options.setting directory translation) {t : Declarations}
    (hrun : (run options directory isFile translation).tree = .ok t) :
    ∃ s₀ s, Opened c s₀ ∧ Build.tree c s₀ = .ok t s ∧
      run options directory isFile translation = s.result (.ok t) := by
  have hvalid : isFile = true ∧ (options.bitness = 32 ∨ options.bitness = 64) := by
    unfold run at hrun
    cases isFile with
    | false => split at hrun <;> cases hrun
    | true =>
      split at hrun
      · cases hrun
      · exact ⟨rfl, bitness_of_arguments ‹_›⟩
  obtain ⟨rfl, hbitness⟩ := hvalid
  rw [run_eq hc hbitness] at hrun ⊢
  cases hresult : Build.extraction c {} with
  | error stop s =>
    rw [hresult] at hrun
    cases hrun
  | ok t' s =>
    rw [hresult] at hrun
    cases hrun
    obtain ⟨_, s₀, hopen, htree⟩ := Steps.bind_eq_ok hresult
    exact ⟨s₀, s, Build.openHeader_eq_ok hopen, htree, rfl⟩

/-- A run with valid options on a header that is read without errors comes to what becomes of the
tree. -/
theorem run_of_readable (hc : c = options.setting directory translation)
    (hbitness : options.bitness = 32 ∨ options.bitness = 64)
    (hreadable : translation.header.isReadable = true)
    (herrors : ∀ m ∈ translation.header.messages, m.isError = false) :
    ∃ s₀, Opened c s₀ ∧
      run options directory true translation = outcome (Build.tree c s₀) := by
  have htranslation : c.translation = translation := hc ▸ rfl
  rw [run_eq hc hbitness]
  cases hopen : Build.openHeader c {} with
  | error stop s =>
    rcases Build.openHeader_eq_error hopen with hunreadable | ⟨m, hm, herror⟩
    · rw [htranslation, hreadable] at hunreadable
      cases hunreadable
    · rw [herrors m (htranslation ▸ hm)] at herror
      cases herror
  | ok _ s₀ =>
    refine ⟨s₀, Build.openHeader_eq_ok hopen, ?_⟩
    have hsteps : Build.extraction c {} = Build.tree c s₀ := by
      show EStateM.bind _ _ _ = _
      rw [EStateM.bind, hopen]
    rw [hsteps]

end

end CInterop.Extraction
