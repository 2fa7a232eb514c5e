import CInterop.Proofs.Extraction.Origins

/-!
# Function pointers and their signatures

A function type is stored under a name that is made of its signature only: the names of the result and
of the parameters, each as a capitalised word, with underscores between them. The name gives the
signature back if the words of different types differ and no word reads like another one that a further
word follows. Then the node that is stored under the name has the signature of every type that the name
is given for.

Both conditions are needed. The words of `point` and `Point` are equal, and the word of a function
pointer reads like that of a shorter one with one more parameter, since its name is made of words with
underscores between them itself.
-/

namespace CInterop.Extraction

open FrontEnd Header

/-- The names of the types that a function gives and takes. -/
structure Signature where
  result : String
  parameters : List String
deriving DecidableEq, Repr

attribute [ext] Signature

namespace Signature

/-- All names in the signature. -/
def names (g : Signature) : List String := g.result :: g.parameters

/-- The name under which function pointers of that signature are stored. -/
def name (g : Signature) : String := functionPointerName g.result g.parameters

end Signature

/-! ## Reading a signature from its name -/

/-- Whether a word is another one with an underscore after it, and then something that may be the
beginning of a word, which is no small letter. -/
def goesOn (word longer : List Char) : Bool :=
  (word ++ ['_']).isPrefixOf longer && !(longer.drop (word.length + 1)).head?.any Char.isLower

/-- The words of different types differ, and none of them goes on where another one ends. -/
def Apart (names : List String) : Prop :=
  ∀ a ∈ names, ∀ b ∈ names,
    (pascal a = pascal b → a = b) ∧ goesOn (pascal a).toList (pascal b).toList = false

instance (names : List String) : Decidable (Apart names) :=
  inferInstanceAs (Decidable (∀ a ∈ names, ∀ b ∈ names,
    (pascal a = pascal b → a = b) ∧ goesOn (pascal a).toList (pascal b).toList = false))

/-- The words of further types, each after an underscore. -/
def continued (names : List String) : List Char := names.flatMap fun name => '_' :: (pascal name).toList

theorem continued_cons (name : String) (names : List String) :
    continued (name :: names) = '_' :: ((pascal name).toList ++ continued names) := rfl

theorem toList_words (name : String) (names : List String) :
    (String.intercalate "_" ((name :: names).map pascal)).toList =
      (pascal name).toList ++ continued names := by
  induction names generalizing name with
  | nil =>
    rw [List.map_cons, List.map_nil, String.intercalate_singleton]
    exact (List.append_nil _).symm
  | cons next rest ih =>
    have hmark : "_".toList = ['_'] := rfl
    rw [List.map_cons, List.map_cons, String.intercalate_cons_cons, ← List.map_cons,
      String.toList_append, String.toList_append, ih, continued_cons, hmark, List.append_assoc,
      List.singleton_append]

theorem toList_functionPointerName (result : String) (parameters : List String) :
    (functionPointerName result parameters).toList =
      "FnPtr_".toList ++ ((pascal result).toList ++ continued parameters) := by
  rw [functionPointerName, String.toList_append, toList_words]

/-- Where words begin there is no small letter. -/
theorem isLower_of_head?_word {name : String} {names : List String} {d : Char}
    (h : ((pascal name).toList ++ continued names).head? = some d) : d.isLower = false := by
  rw [List.head?_append] at h
  cases hword : (pascal name).toList.head? with
  | some first =>
    rw [hword] at h
    cases h
    rw [pascal, String.toList_ofList] at hword
    exact Text.isLower_of_head?_capitalized hword
  | none =>
    rw [hword] at h
    cases names with
    | nil => cases h
    | cons next rest =>
      cases h
      decide

section

variable {names : List String}

/-- Where one type ends the word of another one does not go on as if by a further type. -/
theorem Apart.eq_nil (h : Apart names) {a b : String} (ha : a ∈ names) (hb : b ∈ names)
    {more : List Char} {rest : List String} {after : List Char}
    (hword : (pascal b).toList = (pascal a).toList ++ more) (hrest : continued rest = more ++ after) :
    more = [] := by
  -- what is left of the longer word would begin with the underscore before the next one
  cases more with
  | nil => rfl
  | cons d more =>
    cases rest with
    | nil => cases hrest
    | cons next rest =>
      obtain ⟨rfl, hnext⟩ : '_' = d ∧ (pascal next).toList ++ continued rest = more ++ after :=
        List.cons.inj hrest
      have hgoes := (h a ha b hb).2
      have hprefix : ((pascal a).toList ++ ['_']).isPrefixOf (pascal b).toList = true := by
        rw [List.isPrefixOf_iff_prefix, hword]
        exact ⟨more, List.append_assoc _ _ _⟩
      have hdrop : (pascal b).toList.drop ((pascal a).toList.length + 1) = more := by
        rw [hword, List.drop_append, List.drop_of_length_le (Nat.le_succ _), List.nil_append,
          Nat.add_sub_cancel_left]
        rfl
      rw [goesOn, hprefix, hdrop, Bool.true_and, Bool.not_eq_false'] at hgoes
      obtain ⟨c, hc, hlower⟩ := (Option.any_eq_true _ _).mp hgoes
      -- the next word would begin with a small letter
      have hhead : ((pascal next).toList ++ continued rest).head? = some c := by
        rw [hnext, List.head?_append, hc]
        rfl
      rw [isLower_of_head?_word hhead] at hlower
      cases hlower

/-- The first of types that are apart can be read from their words, and what is left belongs to the
others. -/
theorem Apart.eq_and_eq (h : Apart names) {a b : String} (ha : a ∈ names) (hb : b ∈ names)
    {as bs : List String}
    (heq : (pascal a).toList ++ continued as = (pascal b).toList ++ continued bs) :
    a = b ∧ continued as = continued bs := by
  -- one of the two words begins with the other one, and nothing of it is left then
  have hword : pascal a = pascal b := by
    rcases List.append_eq_append_iff.mp heq with ⟨more, hword, hrest⟩ | ⟨more, hword, hrest⟩
    · rw [h.eq_nil ha hb hword hrest, List.append_nil] at hword
      exact String.toList_inj.mp hword.symm
    · rw [h.eq_nil hb ha hword hrest, List.append_nil] at hword
      exact String.toList_inj.mp hword
  obtain rfl := (h a ha b hb).1 hword
  exact ⟨rfl, List.append_cancel_left heq⟩

theorem Apart.eq_of_continued (h : Apart names) {as bs : List String} (has : ∀ a ∈ as, a ∈ names)
    (hbs : ∀ b ∈ bs, b ∈ names) (heq : continued as = continued bs) : as = bs := by
  induction as generalizing bs with
  | nil =>
    cases bs with
    | nil => rfl
    | cons b bs => cases heq
  | cons a as ih =>
    cases bs with
    | nil => cases heq
    | cons b bs =>
      rw [List.forall_mem_cons] at has hbs
      obtain ⟨rfl, hrest⟩ := h.eq_and_eq has.1 hbs.1 (List.cons.inj heq).2
      rw [ih has.2 hbs.2 hrest]

/-- A signature can be read from its name if the types in question are apart. -/
theorem Apart.eq_of_name (h : Apart names) {g g' : Signature} (hg : ∀ name ∈ g.names, name ∈ names)
    (hg' : ∀ name ∈ g'.names, name ∈ names) (heq : g.name = g'.name) : g = g' := by
  have hwords := congrArg String.toList heq
  rw [Signature.name, Signature.name, toList_functionPointerName, toList_functionPointerName] at hwords
  rw [Signature.names, List.forall_mem_cons] at hg hg'
  obtain ⟨hresult, hrest⟩ := h.eq_and_eq hg.1 hg'.1 (List.append_cancel_left hwords)
  exact Signature.ext hresult (h.eq_of_continued hg.2 hg'.2 hrest)

/-- The name of a function pointer may read like that of another one with a further parameter. -/
example : ¬Apart ["FnPtr_Int", "FnPtr_Int_Int"] := by decide +kernel

end

/-! ## The signature that a function type is resolved to -/

/-- The signature that the node of a function pointer stores. -/
def storedSignature? (node : Declaration) : Option Signature :=
  match node.body with
  | .functionPointer result parameters _ => some ⟨result, parameters.map (·.type)⟩
  | _ => none

theorem stored_name {c : Setting} {s : State} {node : Declaration} {g : Signature}
    (h : Sourced c s node) (hg : storedSignature? node = some g) : node.name = g.name := by
  unfold storedSignature? at hg
  unfold Sourced at h
  split at hg
  · rename_i hbody
    cases hg
    rwa [hbody] at h
  · cases hg

/-- The type is the function type, or a pointer to it, after the given number of keywords and forms that
tell nothing. -/
inductive FunctionOf (c : Setting) : Nat → TypeRef → TypeRef → Prop where
  | function {t : TypeRef} : (c.type t).kind.isFunction = true → FunctionOf c 0 t t
  | pointer {t : TypeRef} : (c.type t).kind = .pointer →
      (c.type (c.canonical (c.type t).pointee)).kind.isFunction = true →
      FunctionOf c 0 t (c.canonical (c.type t).pointee)
  | elaborated {n : Nat} {t f : TypeRef} : (c.type t).kind = .elaborated →
      FunctionOf c n (c.type t).named f → FunctionOf c (n + 1) t f
  | canonical {n : Nat} {t f : TypeRef} : (c.type t).kind.isVague = true →
      FunctionOf c n (c.canonical t) f → FunctionOf c (n + 1) t f

namespace Build

variable {c : Setting}

/-- The signature of a function type, where `resolve` resolves the types in it. -/
def signature (c : Setting) (resolve : TypeRef → Build String) (t : TypeRef) : Build Signature := do
  let info := c.type t
  let result ← resolve info.result
  let parameters ← match info.kind with
    | .prototype => info.parameters.mapM resolve
    | _ => pure []
  return ⟨result, parameters⟩

/-- A function pointer is stored by its signature. -/
theorem functionPointer_eq (c : Setting) (resolve : TypeRef → Build String) (t : TypeRef) :
    functionPointer c resolve t = signature c resolve t >>= fun g =>
      declareOnce ⟨g.name, .functionPointer g.result (g.parameters.map fun type => ⟨"", type⟩)
        c.pointerSize, none⟩ := by
  unfold functionPointer signature
  rw [bind_assoc]
  refine congrArg (resolve (c.type t).result >>= ·) (funext fun result => ?_)
  dsimp only
  generalize (c.type t).kind = kind
  cases kind with
  | prototype =>
    rw [bind_assoc]
    rfl
  | _ => rfl

theorem declareOnce_eq_ok {node : Declaration} {s s' : State} {name : String}
    (h : declareOnce node s = .ok name s') : name = node.name := by
  obtain ⟨_, _, -, hrest⟩ := Steps.bind_eq_ok h
  dsimp only at hrest
  split at hrest
  · obtain ⟨_, _, -, hreturn⟩ := Steps.bind_eq_ok hrest
    cases hreturn
    rfl
  · cases hrest
    rfl

/-- What a function type is resolved to within a number of references, from some state: its result
first, then its parameters. -/
def Signs (c : Setting) (steps n : Nat) (f : TypeRef) (s : State) (g : Signature) : Prop :=
  ∃ k after, steps = k + n + 1 ∧ signature c (resolveWithin c k) f s = .ok g after

theorem functionPointer_signs {k : Nat} {f : TypeRef} {s s' : State} {name : String}
    (h : functionPointer c (resolveWithin c k) f s = .ok name s') :
    ∃ g, Signs c (k + 1) 0 f s g ∧ g.name = name := by
  rw [functionPointer_eq] at h
  obtain ⟨g, after, hsignature, hdeclare⟩ := Steps.bind_eq_ok h
  exact ⟨g, ⟨k, after, rfl, hsignature⟩, (declareOnce_eq_ok hdeclare).symm⟩

theorem resolveWithin_eq_ok {steps : Nat} {t : TypeRef} {s s' : State} {name : String}
    (h : resolveWithin c steps t s = .ok name s') :
    ∃ k left, steps = k + 1 ∧ resolveStep c (resolveWithin c k) t s = .ok name left := by
  cases steps with
  | zero => cases h
  | succ k =>
    obtain ⟨_, left, hstep, hnote⟩ := Steps.bind_eq_ok h
    cases hnote
    exact ⟨k, left, rfl, hstep⟩

/-- A function type or a pointer to it is called by the name of its signature. -/
theorem exists_signs {n steps : Nat} {t f : TypeRef} {s s' : State} {name : String}
    (hf : FunctionOf c n t f) (h : resolveWithin c steps t s = .ok name s') :
    ∃ g, Signs c steps n f s g ∧ g.name = name := by
  -- a keyword or a vague form takes one reference and leaves the state as it is
  induction hf generalizing steps s' with
  | @function t hkind =>
    obtain ⟨k, left, rfl, hstep⟩ := resolveWithin_eq_ok h
    have hown : functionPointer c (resolveWithin c k) t s = .ok name left := by
      unfold resolveStep at hstep
      cases hcase : (c.type t).kind <;> rw [hcase] at hkind <;> try cases hkind
      · simpa [hcase] using hstep
      · simpa [hcase] using hstep
    exact functionPointer_signs hown
  | pointer hpointer hkind =>
    obtain ⟨k, left, rfl, hstep⟩ := resolveWithin_eq_ok h
    unfold resolveStep at hstep
    rw [hpointer] at hstep
    dsimp only [pointer] at hstep
    rw [if_pos hkind] at hstep
    exact functionPointer_signs hstep
  | elaborated hkind _ ih =>
    obtain ⟨k, left, rfl, hstep⟩ := resolveWithin_eq_ok h
    unfold resolveStep at hstep
    rw [hkind] at hstep
    obtain ⟨g, ⟨k', after, hsteps, hg⟩, hname⟩ := ih hstep
    exact ⟨g, ⟨k', after, by omega, hg⟩, hname⟩
  | @canonical n t f hvague _ ih =>
    obtain ⟨k, left, rfl, hstep⟩ := resolveWithin_eq_ok h
    have hresolve : resolveWithin c k (c.canonical t) s = .ok name left := by
      unfold resolveStep at hstep
      cases hcase : (c.type t).kind <;> rw [hcase] at hvague <;> try cases hvague
      all_goals
        rw [hcase] at hstep
        dsimp only [canonicalForm] at hstep
        split at hstep
        · cases hstep
        · exact hstep
    obtain ⟨g, ⟨k', after, hsteps, hg⟩, hname⟩ := ih hresolve
    exact ⟨g, ⟨k', after, by omega, hg⟩, hname⟩

/-- Function types get the same name only for the same signature, and the node under that name stores
the signature of all of them, where the types in the signatures are apart. -/
theorem functionPointers_canonical {s₀ s : State} {tree : Declarations} (hregistry : s₀.registry = {})
    (hrenames : s₀.tagRenames = []) (htree : Build.tree c s₀ = .ok tree s)
    {n n' steps steps' : Nat} {t t' f f' : TypeRef} {here here' left left' : State} {name : String}
    (hf : FunctionOf c n t f) (hf' : FunctionOf c n' t' f')
    (h : resolveWithin c steps t here = .ok name left)
    (h' : resolveWithin c steps' t' here' = .ok name left') :
    ∃ g g', Signs c steps n f here g ∧ Signs c steps' n' f' here' g' ∧
      (Apart (g.names ++ g'.names) → g = g') ∧
      ∀ node ∈ tree.nodes, node.name = name → ∀ stored, storedSignature? node = some stored →
        Apart (g.names ++ stored.names) → stored = g := by
  have hleft (g g' : Signature) : ∀ name ∈ g.names, name ∈ g.names ++ g'.names :=
    fun _ hname => List.mem_append_left _ hname
  have hright (g g' : Signature) : ∀ name ∈ g'.names, name ∈ g.names ++ g'.names :=
    fun _ hname => List.mem_append_right _ hname
  obtain ⟨g, hg, hname⟩ := exists_signs hf h
  obtain ⟨g', hg', hname'⟩ := exists_signs hf' h'
  refine ⟨g, g', hg, hg', fun hapart => ?_, fun node hnode heq stored hstored hapart => ?_⟩
  · exact hapart.eq_of_name (hleft g g') (hright g g') (hname.trans hname'.symm)
  · have hown := stored_name (sourced_of_tree (sound_of_empty hregistry hrenames) htree node hnode) hstored
    exact hapart.eq_of_name (hright g stored) (hleft g stored) (hown.symm.trans (heq.trans hname.symm))

/-- A header with two callbacks of one signature. -/
def callbackHeader : Translation where
  types := #[
    { kind := .scalar .int, spelling := "int", size := 4, align := 4 },
    { kind := .scalar .void, spelling := "void" },
    { kind := .prototype, result := ⟨some 1⟩, parameters := [⟨some 0⟩] },
    { kind := .pointer, pointee := ⟨some 2⟩ },
    { kind := .prototype, result := ⟨some 1⟩, parameters := [⟨some 0⟩] },
    { kind := .pointer, pointee := ⟨some 4⟩ }]
  entities := #[
    { kind := .global, spelling := "first", file := some "/work/test.h", type := ⟨some 3⟩ },
    { kind := .global, spelling := "second", file := some "/work/test.h", type := ⟨some 5⟩ }]
  header := { top := [⟨some 0⟩, ⟨some 1⟩] }

def callbackSetting : Setting where
  translation := callbackHeader
  header := "/work/test.h"
  directory := "/work"
  bitness := 64
  arguments := []
  rules := ⟨[]⟩
  isStrict := false
  isVerbose := false

/-- Both callbacks have the one node of their signature. -/
theorem functionPointers_canonical_callbackSetting :
    ∃ tree s g g', Build.tree callbackSetting {} = .ok tree s ∧
      tree.nodes.filterMap storedSignature? = [⟨"void", ["int"]⟩] ∧
      Signs callbackSetting 3 0 ⟨some 2⟩ {} g ∧ Signs callbackSetting 3 0 ⟨some 4⟩ {} g' ∧
      g.name = "FnPtr_Void_Int" ∧ g = g' ∧
      ∀ node ∈ tree.nodes, node.name = "FnPtr_Void_Int" →
        ∀ stored, storedSignature? node = some stored → stored = g := by
  have htree : hasResult (Build.tree callbackSetting) {} (fun tree _ =>
      decide (tree.nodes.filterMap storedSignature? = [⟨"void", ["int"]⟩])) = true := by
    decide +kernel
  have hresolve (t : TypeRef) (ht : t = ⟨some 3⟩ ∨ t = ⟨some 5⟩) :
      hasResult (resolveWithin callbackSetting 3 t) {} (fun name _ => name = "FnPtr_Void_Int") = true := by
    rcases ht with rfl | rfl <;> decide +kernel
  have hsigns (f : TypeRef) (g : Signature) (hf : f = ⟨some 2⟩ ∨ f = ⟨some 4⟩)
      (hg : Signs callbackSetting 3 0 f {} g) : g = ⟨"void", ["int"]⟩ := by
    obtain ⟨k, after, hk, hg⟩ := hg
    obtain rfl : k = 2 := by omega
    have hsignature : hasResult (signature callbackSetting (resolveWithin callbackSetting 2) f) {}
        (fun g _ => decide (g = ⟨"void", ["int"]⟩)) = true := by
      rcases hf with rfl | rfl <;> decide +kernel
    rw [hasResult, hg] at hsignature
    exact of_decide_eq_true hsignature
  have hapart : Apart ["void", "int", "void", "int"] := by decide +kernel
  obtain ⟨tree, s, htree, hstored⟩ := eq_ok_of_hasResult htree
  obtain ⟨_, left, h, hname⟩ := eq_ok_of_hasResult (hresolve _ (.inl rfl))
  obtain ⟨_, left', h', hname'⟩ := eq_ok_of_hasResult (hresolve _ (.inr rfl))
  obtain rfl := of_decide_eq_true hname
  obtain rfl := of_decide_eq_true hname'
  obtain ⟨g, g', hg, hg', heq, hnodes⟩ := functionPointers_canonical rfl rfl htree
    (.pointer rfl rfl) (.pointer rfl rfl) h h'
  have hstored := of_decide_eq_true hstored
  obtain rfl := hsigns _ g (.inl rfl) hg
  obtain rfl := hsigns _ g' (.inr rfl) hg'
  refine ⟨tree, s, _, _, htree, hstored, hg, hg', by decide +kernel, heq hapart, ?_⟩
  intro node hnode hname stored hsome
  have hmem : stored ∈ tree.nodes.filterMap storedSignature? :=
    List.mem_filterMap.mpr ⟨node, hnode, hsome⟩
  rw [hstored, List.mem_singleton] at hmem
  subst hmem
  exact hnodes node hnode hname _ hsome hapart

end Build

end CInterop.Extraction
