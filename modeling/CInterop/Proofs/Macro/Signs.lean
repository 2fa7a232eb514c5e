import CInterop.Proofs.Macro.Rendering

/-!
# Signs that meet

The target reads two equal signs next to each other as one operator. A unary operator is written right in
front of its operand, and a binary one right in front of what is to its right, which may be a unary operator
again. So equal signs meet in the written form exactly where they meet in the tree: parentheses are put
around binary operations only, and no operand but one behind a unary operator begins with a sign.

What is said of a piece of text holds with any text behind it, so that it can be said of two pieces from
what is said of each.
-/

namespace CInterop.Macro

open Token Literal

/-! ## Equal signs in a text -/

def isSign (c : Char) : Bool := c == '+' || c == '-'

/-- The quote of a literal that begins with the character. -/
def quoteOf? (c : Char) : Option Char := if c = '"' ∨ c = '\'' then some c else none

/-- Whether two equal signs stand next to each other outside of literals, in a text that goes on behind the
given open quote, if there is one. -/
def hasDoubledSign : Option Char → List Char → Bool
  | _, [] => false
  | none, c :: rest => (isSign c && rest.head? == some c) || hasDoubledSign (quoteOf? c) rest
  | some quote, '\\' :: _ :: rest => hasDoubledSign (some quote) rest
  | some quote, c :: rest => hasDoubledSign (if c = quote then none else some quote) rest

/-- The character, if it is a sign. -/
def signOf? (c : Char) : Option Char := if isSign c then some c else none

/-- Whether there are two signs and they are equal. -/
def meet (left right : Option Char) : Bool := left.isSome && left == right

theorem meet_signOf? (c d : Char) : meet (signOf? c) (signOf? d) = (isSign c && d == c) := by
  unfold meet signOf?
  by_cases hc : isSign c = true
  · by_cases hd : d = c
    · subst hd
      simp [hc]
    · have hdc : ¬ c = d := fun heq => hd heq.symm
      by_cases hsign : isSign d = true
      · simp [hc, hd, hdc, hsign]
      · simp [hc, hd, hsign]
  · simp [hc]

/-! ## Equal signs in a tree -/

def UnaryOp.sign? : UnaryOp → Option Char
  | .minus => some '-'
  | .plus => some '+'
  | .complement | .not => none

def BinaryOp.sign? : BinaryOp → Option Char
  | .sub => some '-'
  | .add => some '+'
  | _ => none

namespace Expr

/-- The sign in front of an expression. -/
def sign? : Expr → Option Char
  | unary op _ => op.sign?
  | _ => none

mutual

/-- Whether a sign somewhere has an operand to its right with an equal sign in front. -/
def signsMeet : Expr → Bool
  | number _ | string _ | char _ | identifier _ => false
  | unary op operand => meet op.sign? operand.sign? || signsMeet operand
  | binary left op right => signsMeet left || (meet op.sign? right.sign? || signsMeet right)
  | call _ arguments => argumentSignsMeet arguments

/-- Whether signs meet in one of the arguments. -/
def argumentSignsMeet : List Expr → Bool
  | [] => false
  | e :: rest => signsMeet e || argumentSignsMeet rest

end

end Expr

/-! ## Pieces of a text -/

/-- The text begins with the given sign or with none, equal signs stand in it or do not, and what follows
it is judged apart from it. -/
structure Shows (cs : List Char) (first : Option Char) (doubled : Bool) : Prop where
  head : ∃ c rest, cs = c :: rest ∧ signOf? c = first
  after : ∀ rest, hasDoubledSign none (cs ++ rest) = (doubled || hasDoubledSign none rest)

theorem Shows.append {cs others : List Char} {first second : Option Char} {doubled doubled' : Bool}
    (h : Shows cs first doubled) (hothers : Shows others second doubled') :
    Shows (cs ++ others) first (doubled || doubled') where
  head := by
    obtain ⟨c, rest, rfl, hfirst⟩ := h.head
    exact ⟨c, rest ++ others, rfl, hfirst⟩
  after rest := by rw [List.append_assoc, h.after, hothers.after, Bool.or_assoc]

/-- A character in front of a text, which meets the text if it is a sign. -/
theorem Shows.cons {c : Char} {cs : List Char} {first : Option Char} {doubled : Bool}
    (hquote : quoteOf? c = none) (h : Shows cs first doubled) :
    Shows (c :: cs) (signOf? c) (meet (signOf? c) first || doubled) where
  head := ⟨c, cs, rfl, rfl⟩
  after rest := by
    obtain ⟨d, tail, rfl, rfl⟩ := h.head
    have hafter := h.after rest
    rw [List.cons_append] at hafter
    rw [List.cons_append, List.cons_append, hasDoubledSign, hquote, hafter, meet_signOf?,
      List.head?_cons, Bool.or_assoc]
    rfl

/-- The character is neither a sign nor a quote. -/
def IsCalm (c : Char) : Prop := isSign c = false ∧ quoteOf? c = none

instance (c : Char) : Decidable (IsCalm c) := inferInstanceAs (Decidable (_ ∧ _))

theorem IsCalm.signOf? {c : Char} (h : IsCalm c) : signOf? c = none := by
  rw [Macro.signOf?, h.1]
  rfl

theorem IsCalm.shows {c : Char} (h : IsCalm c) : Shows [c] none false where
  head := ⟨c, [], rfl, h.signOf?⟩
  after rest := by
    rw [List.singleton_append, hasDoubledSign, h.1, h.2]
    rfl

theorem IsCalm.cons {c : Char} {cs : List Char} {first : Option Char} {doubled : Bool} (hc : IsCalm c)
    (h : Shows cs first doubled) : Shows (c :: cs) none doubled := by
  have hcons := h.cons hc.2
  rwa [hc.signOf?] at hcons

/-- A text of such characters shows nothing. -/
theorem shows_of_calm {cs : List Char} (hne : cs ≠ []) (h : ∀ c ∈ cs, IsCalm c) : Shows cs none false := by
  induction cs with
  | nil => exact absurd rfl hne
  | cons c cs ih =>
    rw [List.forall_mem_cons] at h
    by_cases hcs : cs = []
    · subst hcs
      exact h.1.shows
    · exact h.1.cons (ih hcs h.2)

/-- A unary operator in front of its operand. -/
theorem Shows.unary (op : UnaryOp) {cs : List Char} {first : Option Char} {doubled : Bool}
    (h : Shows cs first doubled) :
    Shows (op.symbol.toList ++ cs) op.sign? (meet op.sign? first || doubled) := by
  cases op
  all_goals exact h.cons rfl

/-- A binary operator in front of its right operand. -/
theorem Shows.binary (op : BinaryOp) {cs : List Char} {first : Option Char} {doubled : Bool}
    (h : Shows cs first doubled) :
    Shows (op.symbol.toList ++ cs) op.sign? (meet op.sign? first || doubled) := by
  cases op
  case add | sub => exact h.cons rfl
  all_goals first
    | exact IsCalm.cons (by decide) h
    | exact IsCalm.cons (by decide) (IsCalm.cons (by decide) h)

/-! ## Operands -/

/-- A literal is skipped up to its closing quote. -/
theorem hasDoubledSign_of_closes {quote : Char} (hquote : quote ≠ '\\') {cs : List Char}
    (h : closes quote cs = true) (rest : List Char) :
    hasDoubledSign (some quote) (cs ++ rest) = hasDoubledSign none rest := by
  fun_induction closes quote cs with
  | case1 => cases h
  | case2 c cs ih => rw [List.cons_append, List.cons_append, hasDoubledSign, ih h]
  | case3 cs hslash =>
    obtain rfl := List.isEmpty_iff.mp h
    rw [List.singleton_append, hasDoubledSign, if_pos rfl]
    exact fun _ _ heq _ => hquote heq
  | case4 c cs hslash hne ih =>
    have hc : c ≠ '\\' := by
      rintro rfl
      cases cs with
      | nil => cases h
      | cons d cs => exact hslash d cs rfl rfl
    rw [List.cons_append, hasDoubledSign, if_neg hne, ih h]
    exact fun _ _ heq _ => hc heq

theorem shows_closed {quote : Char} (hquote : quote ∈ ['"', '\'']) {cs : List Char}
    (h : isClosed quote cs = true) : Shows cs none false := by
  have hquotes : ∀ quote ∈ ['"', '\''], signOf? quote = none ∧ isSign quote = false ∧
      quoteOf? quote = some quote ∧ quote ≠ '\\' := by decide
  obtain ⟨hnone, hsign, hopens, hslash⟩ := hquotes quote hquote
  cases cs with
  | nil => cases h
  | cons c cs =>
    rw [isClosed, Bool.and_eq_true, beq_iff_eq] at h
    obtain ⟨rfl, hcloses⟩ := h
    refine ⟨⟨c, cs, rfl, hnone⟩, fun rest => ?_⟩
    rw [List.cons_append, hasDoubledSign, hsign, hopens, hasDoubledSign_of_closes hslash hcloses]
    rfl

/-- What no sign and no quote is, is calm. -/
theorem isCalm_of {p : Char → Bool} (hnone : ∀ c ∈ ['+', '-', '"', '\''], p c = false) {c : Char}
    (h : p c = true) : IsCalm c := by
  have hne : c ∉ ['+', '-', '"', '\''] := fun hmem => by
    rw [hnone c hmem] at h
    cases h
  simp only [List.mem_cons, List.not_mem_nil, or_false, not_or] at hne
  simp [IsCalm, isSign, quoteOf?, hne]

theorem shows_word {cs : List Char} (h : IsWord cs) : Shows cs none false := by
  obtain ⟨-, hletter, hword⟩ := h
  refine shows_of_calm (List.cons_ne_nil _ _) (List.forall_mem_cons.mpr ⟨?_, fun d hd => ?_⟩)
  · exact isCalm_of (p := fun c => Text.isLetter c || c == '_') (by decide) hletter
  · exact isCalm_of (p := Text.isWordChar) (by decide) (hword d hd)

/-! ## Numbers -/

/-- The sign of an exponent stands between its letter and a digit. -/
theorem shows_exponent {letter : Char} {sign digits : List Char} (hletter : IsCalm letter)
    (hsign : sign ∈ [[], ['+'], ['-']]) (hne : digits ≠ []) (hdigits : digits ⊆ decimalDigits) :
    Shows (letter :: (sign ++ digits)) none false := by
  have hcalm : ∀ c ∈ decimalDigits, IsCalm c := by decide
  have hshows : Shows digits none false := shows_of_calm hne fun c hc => hcalm c (hdigits hc)
  simp only [List.mem_cons, List.not_mem_nil, or_false] at hsign
  rcases hsign with rfl | rfl | rfl
  · exact hletter.cons hshows
  all_goals exact hletter.cons (Shows.cons (by decide) hshows)

theorem shows_floating {body : List Char} (h : IsFloating body) : Shows body none false := by
  obtain ⟨c, run, exponent, rfl, hrun, hexponent, -⟩ := eq_cons_of_isFloating h
  have hcalm : ∀ c ∈ '.' :: decimalDigits, IsCalm c := by decide
  have hshows : Shows (c :: run) none false :=
    shows_of_calm (List.cons_ne_nil _ _) fun c hc => hcalm c (hrun hc)
  rcases hexponent with rfl | hexponent
  · rwa [List.append_nil]
  · obtain ⟨hletter, hsign, hne, hdigits⟩ := hexponent
    have hletters : ∀ letter ∈ ['e', 'E'], IsCalm letter := by decide
    exact hshows.append (shows_exponent (hletters _ hletter) hsign hne hdigits)

theorem shows_hexadecimal {body : List Char} (h : IsHexadecimalFloating body) :
    Shows body none false := by
  obtain ⟨mark, run, exponent, hmark, rfl, hrun, hexponent⟩ := eq_cons_of_isHexadecimalFloating h
  obtain ⟨hletter, hsign, hne, hdigits⟩ := hexponent
  have hmarks : ∀ mark ∈ ['x', 'X'], IsCalm mark := by decide
  have hcalm : ∀ c ∈ '.' :: hexadecimalDigits, IsCalm c := by decide
  have hletters : ∀ letter ∈ ['p', 'P'], IsCalm letter := by decide
  have hshows : Shows ('0' :: mark :: run) none false := by
    refine shows_of_calm (List.cons_ne_nil _ _) ?_
    rw [List.forall_mem_cons, List.forall_mem_cons]
    exact ⟨by decide, hmarks mark hmark, fun c hc => hcalm c (hrun hc)⟩
  exact hshows.append (shows_exponent (hletters _ hletter) hsign hne hdigits)

/-- Behind a text a few more calm characters. -/
theorem Shows.suffix {cs letters : List Char} {first : Option Char} {doubled : Bool}
    (h : Shows cs first doubled) (hletters : ∀ c ∈ letters, IsCalm c) :
    Shows (cs ++ letters) first doubled := by
  by_cases hempty : letters = []
  · subst hempty
    rwa [List.append_nil]
  · have happend := h.append (shows_of_calm hempty hletters)
    rwa [Bool.or_false] at happend

theorem shows_target {form : List Char} {n : Nat} (h : TargetDenotes form n) :
    Shows form none false := by
  have hcalm : ∀ c ∈ integerCharacters, IsCalm c := by decide
  have hmarks : ∀ mark ∈ ['x', 'X', 'b', 'B'], mark ∈ integerCharacters := by decide
  have hdigits : hexadecimalDigits ⊆ integerCharacters := List.subset_append_left _ _
  have hmarked : ∀ mark ∈ ['x', 'X', 'b', 'B'], ∀ digits ⊆ hexadecimalDigits,
      Shows ('0' :: mark :: digits) none false := by
    intro mark hmark digits hsubset
    refine shows_of_calm (List.cons_ne_nil _ _) ?_
    rw [List.forall_mem_cons, List.forall_mem_cons]
    exact ⟨by decide, hcalm mark (hmarks mark hmark), fun c hc => hcalm c (hdigits (hsubset hc))⟩
  cases h with
  | decimal hne hsubset =>
    exact shows_of_calm hne fun c hc => hcalm c (decimalDigits_subset_integerCharacters (hsubset hc))
  | hexadecimal hmark _ hsubset => exact hmarked _ (List.mem_append_left ['b', 'B'] hmark) _ hsubset
  | binary hmark _ hsubset =>
    exact hmarked _ (List.mem_append_right ['x', 'X'] hmark) _
      (List.Subset.trans hsubset binaryDigits_subset)

/-- The counterpart of a number shows no sign to what stands around it. Only an overlong one has none. -/
theorem shows_number {cs : List Char} (h : IsNumber cs) :
    (∃ form, convertChars cs true = .ok form ∧ Shows form none false) ∨
    (convertChars cs true = .error .tooLong ∧
      ∃ body suffix, cs = body ++ suffix ∧ suffix ∈ integerSuffixes ∧ IsOverlong body) := by
  cases h with
  | @integer body suffix n hbody hsuffix =>
    by_cases hlong : IsOverlong body
    · exact .inr ⟨convertChars_overlong hlong hsuffix true, body, suffix, rfl, hsuffix, hlong⟩
    · obtain ⟨form, hform, hconvert⟩ := hbody.convertChars hlong hsuffix true
      have hcalm : ∀ suffix ∈ integerSuffixes, ∀ c ∈ suffix, IsCalm c := by decide
      exact .inl ⟨_, hconvert,
        (shows_target hform.value).suffix (hcalm _ (integerSuffixes_spec suffix hsuffix).2.1)⟩
  | @floating body suffix hbody hsuffix =>
    have hcalm : ∀ suffix ∈ floatingSuffixes, ∀ c ∈ suffix, IsCalm c := by decide
    exact .inl ⟨_, hbody.convertChars hsuffix,
      (shows_floating hbody).suffix (hcalm _ (floatingSuffixes_spec suffix hsuffix).2.1)⟩
  | hexadecimal hbody hsuffix =>
    have hcalm : ∀ letters ∈ hexadecimalFloatingSuffixes, ∀ c ∈ letters, IsCalm c := by decide
    obtain ⟨letters, hmem, hconvert, -⟩ := convertChars_hexadecimal hbody hsuffix
    exact .inl ⟨_, hconvert, (shows_hexadecimal hbody).suffix (hcalm letters hmem)⟩

/-! ## Expressions -/

namespace Expr

theorem shows_converted {number form : String} (h : IsNumber number.toList)
    (hconvert : convert number true = .ok form) : Shows form.toList none false := by
  rw [convert] at hconvert
  rcases shows_number h with ⟨form', hform, hshows⟩ | ⟨herror, -⟩
  · rw [hform] at hconvert
    cases hconvert
    rwa [String.toList_ofList]
  · rw [herror] at hconvert
    cases hconvert

mutual

/-- A written expression shows the signs of its tree. -/
theorem shows_render : (e : Expr) → (∀ leaf ∈ leaves e, IsWhole leaf) → {text : String} →
    render e = .ok text → Shows text.toList e.sign? e.signsMeet
  | number text, h, _, hrender => shows_converted (h ⟨.number, text⟩ (by simp [leaves])).1 hrender
  | string text, h, _, hrender => by
    cases hrender
    exact shows_closed (by decide) (h ⟨.string, text⟩ (by simp [leaves]))
  | char text, h, _, hrender => by
    cases hrender
    exact shows_closed (by decide) (h ⟨.char, text⟩ (by simp [leaves]))
  | identifier name, h, _, hrender => by
    cases hrender
    exact shows_word (h ⟨.identifier, name⟩ (by simp [leaves]))
  | unary op operand, h, _, hrender => by
    rw [render, bind_eq_ok] at hrender
    obtain ⟨text, hoperand, heq⟩ := hrender
    cases heq
    rw [String.toList_append]
    exact .unary op (shows_render operand h hoperand)
  | binary left op right, h, _, hrender => by
    simp only [render, bind_eq_ok] at hrender
    obtain ⟨first, hleft, second, hright, heq⟩ := hrender
    cases heq
    have hlefts := shows_render left (fun leaf hleaf => h leaf (by simp [leaves, hleaf])) hleft
    have hrights := shows_render right (fun leaf hleaf => h leaf (by simp [leaves, hleaf])) hright
    have hclosing : ∀ c ∈ [')'], IsCalm c := by decide
    -- neither parenthesis is a sign, so that only the operator can meet something, to its right
    have hinner := IsCalm.cons (c := '(') (by decide)
      (hlefts.append (Shows.binary op (hrights.suffix hclosing)))
    simpa [signsMeet, sign?] using hinner
  | call function arguments, h, _, hrender => by
    rw [render, bind_eq_ok] at hrender
    obtain ⟨texts, harguments, heq⟩ := hrender
    cases heq
    obtain ⟨first, hinner⟩ := shows_arguments arguments
      (fun leaf hleaf => h leaf (by simp [leaves, hleaf])) harguments
    have hname : Shows function.toList none false :=
      shows_word (h ⟨.identifier, function⟩ (by simp [leaves]))
    have hall := hname.append (IsCalm.cons (c := '(') (by decide) hinner)
    simpa [signsMeet, sign?, String.toList_intercalate] using hall

/-- Written arguments with the closing parenthesis show the signs of each. -/
theorem shows_arguments : (arguments : List Expr) → (∀ leaf ∈ argumentLeaves arguments, IsWhole leaf) →
    {texts : List String} → renderAll arguments = .ok texts →
    ∃ first, Shows ([','].intercalate (texts.map String.toList) ++ [')']) first
      (argumentSignsMeet arguments)
  | [], _, _, hrender => by
    cases hrender
    exact ⟨none, IsCalm.shows (by decide)⟩
  | [e], h, _, hrender => by
    simp only [renderAll, bind_eq_ok] at hrender
    obtain ⟨text, he, rest, hnil, heq⟩ := hrender
    cases hnil
    cases heq
    have hshows := shows_render e (fun leaf hleaf => h leaf (by simp [argumentLeaves, hleaf])) he
    have hclosing : ∀ c ∈ [')'], IsCalm c := by decide
    exact ⟨_, by simpa [argumentSignsMeet] using hshows.suffix hclosing⟩
  | e :: other :: more, h, _, hrender => by
    rw [renderAll, bind_eq_ok] at hrender
    obtain ⟨text, he, hrender⟩ := hrender
    rw [bind_eq_ok] at hrender
    obtain ⟨texts, hothers, heq⟩ := hrender
    cases heq
    have hshows := shows_render e (fun leaf hleaf => h leaf (by simp [argumentLeaves, hleaf])) he
    obtain ⟨first, hinner⟩ := shows_arguments (other :: more)
      (fun leaf hleaf => h leaf (by rw [argumentLeaves]; exact List.mem_append_right _ hleaf)) hothers
    -- there is another argument, so that the comma does stand behind the first one
    have hne : texts ≠ [] := by
      simp only [renderAll, bind_eq_ok] at hothers
      obtain ⟨second, -, others, -, heq⟩ := hothers
      cases heq
      exact List.cons_ne_nil _ _
    obtain ⟨second, others, rfl⟩ := List.exists_cons_of_ne_nil hne
    have hall := hshows.append (IsCalm.cons (c := ',') (by decide) hinner)
    exact ⟨_, by simpa [argumentSignsMeet] using hall⟩

end

/-- An expression that was read, with number constants and closed literals, is written with two equal signs
next to each other, outside of literals, exactly if signs meet in its tree. It can be written if none of its
octal numbers is overlong. -/
theorem doubledSign_render {text : String} {e : Expr} (hread : ofText? text = some e)
    (hnumbers : ∀ number, ⟨.number, number⟩ ∈ leaves e → IsNumber number.toList)
    (hstrings : ∀ literal, ⟨.string, literal⟩ ∈ leaves e → isClosed '"' literal.toList = true)
    (hchars : ∀ literal, ⟨.char, literal⟩ ∈ leaves e → isClosed '\'' literal.toList = true) :
    (∀ rendered, render e = .ok rendered → hasDoubledSign none rendered.toList = e.signsMeet) ∧
    ((∀ body suffix, ⟨.number, String.ofList (body ++ suffix)⟩ ∈ leaves e →
        suffix ∈ integerSuffixes → ¬ IsOverlong body) →
      ∃ rendered, render e = .ok rendered) := by
  have hwhole := isWhole_of_ofText? hread hnumbers hstrings hchars
  refine ⟨fun rendered hrender => ?_, fun hshort => exists_render e (writable_of_whole hwhole hshort)⟩
  have hafter := (shows_render e hwhole hrender).after []
  rwa [List.append_nil, hasDoubledSign, Bool.or_false] at hafter

/-- A difference of signed operands, in which signs stand next to each other that are not equal, in an
exponent and in literals. -/
def signed : Expr :=
  binary (binary (unary .minus (identifier "x")) .sub (unary .plus (number ".5e-1"))) .add
    (call "f" [char "'-'", string "\"--\""])

/-- A number with two signs in front. -/
def negated : Expr := unary .minus (unary .minus (number "1"))

theorem doubledSign_render_signed :
    ofText? "-x - +.5e-1 + f('-', \"--\")" = some signed ∧
    (∃ rendered, render signed = .ok rendered ∧ hasDoubledSign none rendered.toList = false) ∧
    ofText? "-(-1)" = some negated ∧
    ∃ rendered, render negated = .ok rendered ∧
      hasDoubledSign none rendered.toList = true := by
  have hsigned : ofText? "-x - +.5e-1 + f('-', \"--\")" = some signed := by
    have htokens : Token.ofText "-x - +.5e-1 + f('-', \"--\")" =
        [⟨.operator, "-"⟩, ⟨.identifier, "x"⟩, ⟨.operator, "-"⟩, ⟨.operator, "+"⟩, ⟨.number, ".5e-1"⟩,
          ⟨.operator, "+"⟩, ⟨.identifier, "f"⟩, Grammar.opening, ⟨.char, "'-'"⟩, Grammar.comma,
          ⟨.string, "\"--\""⟩, Grammar.closing] := by
      decide +kernel
    rw [ofText?, htokens]
    rfl
  have hnegated : ofText? "-(-1)" = some negated := by
    have htokens : Token.ofText "-(-1)" = [⟨.operator, "-"⟩, Grammar.opening, ⟨.operator, "-"⟩,
        ⟨.number, "1"⟩, Grammar.closing] := by
      decide +kernel
    rw [ofText?, htokens]
    rfl
  have hshort : ∀ {e : Expr}, (∀ number, ⟨.number, number⟩ ∈ leaves e → number.toList.head? ≠ some '0') →
      ∀ body suffix, ⟨.number, String.ofList (body ++ suffix)⟩ ∈ leaves e →
        suffix ∈ integerSuffixes → ¬ IsOverlong body := by
    rintro e hzero body suffix hmem - ⟨digits, rfl, -⟩
    exact hzero _ hmem (by rw [String.toList_ofList]; rfl)
  refine ⟨hsigned, ?_, hnegated, ?_⟩
  · have hnumbers : ∀ number, ⟨.number, number⟩ ∈ leaves signed → number = ".5e-1" := by
      simp [signed, leaves, argumentLeaves]
    obtain ⟨hdoubled, hwritten⟩ := doubledSign_render hsigned
      (fun number hmem => by
        rw [hnumbers number hmem]
        exact @IsNumber.floating ['.', '5', 'e', '-', '1'] []
          (@IsFloating.pointed [] ['5'] ['e', '-', '1'] (by decide) (by decide) (by decide)
            (.inr (@IsExponent.mk 'e' ['-'] ['1'] (by decide) (by decide) (by decide) (by decide))))
          (by decide))
      (fun literal hmem => by
        obtain rfl : literal = "\"--\"" := by simpa [signed, leaves, argumentLeaves] using hmem
        decide)
      (fun literal hmem => by
        obtain rfl : literal = "'-'" := by simpa [signed, leaves, argumentLeaves] using hmem
        decide)
    obtain ⟨rendered, hrender⟩ := hwritten (hshort fun number hmem => by
      rw [hnumbers number hmem]
      decide)
    exact ⟨rendered, hrender, hdoubled rendered hrender⟩
  · have hnumbers : ∀ number, ⟨.number, number⟩ ∈ leaves negated → number = "1" := by
      simp [negated, leaves]
    obtain ⟨hdoubled, hwritten⟩ := doubledSign_render hnegated
      (fun number hmem => by
        rw [hnumbers number hmem]
        exact @IsNumber.integer ['1'] [] 1 (.decimal (by decide) (by decide) (by decide)) (by decide))
      (fun literal hmem => by simp [negated, leaves] at hmem)
      (fun literal hmem => by simp [negated, leaves] at hmem)
    obtain ⟨rendered, hrender⟩ := hwritten (hshort fun number hmem => by
      rw [hnumbers number hmem]
      decide)
    exact ⟨rendered, hrender, hdoubled rendered hrender⟩

end Expr
end CInterop.Macro
