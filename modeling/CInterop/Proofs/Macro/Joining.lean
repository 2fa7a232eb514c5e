import CInterop.Macro.Spelling
import CInterop.Proofs.Macro.Grammar
import CInterop.Proofs.Macro.Scanning

/-!
# Storing the tokens of a macro

A macro is stored as the text that the spellings of its tokens make one after the other. If the tokens are
an expression, no blank is ever needed between two of them: operands do not meet, string literals apart,
and what stands between them is no character of a word. The text is cut into the same tokens again, since
each of them ends in front of whatever an expression can go on with.

There are two kinds of tokens of C that do not come back: names with characters that are no characters of a
word here, and hexadecimal numbers with a signed exponent.
-/

namespace CInterop.Macro.Token

open Literal Grammar

/-! ## What stands before and behind tokens -/

/-- The characters of tokens in a row. -/
def spelled (tokens : List Token) : List Char := tokens.flatMap (·.text.toList)

theorem spelled_append (tokens others : List Token) :
    spelled (tokens ++ others) = spelled tokens ++ spelled others :=
  List.flatMap_append

theorem spelled_singleton (token : Token) : spelled [token] = token.text.toList :=
  List.flatMap_singleton ..

/-- A text with tokens put behind it. -/
def joinTokens (text : List Char) (tokens : List Token) : List Char :=
  tokens.foldl (fun text token => appendSpelling text token.text.toList) text

/-- The text does not end in a character of a word, so that a word can be put behind it. -/
def Open (text : List Char) : Prop := ∀ c ∈ text.getLast?, Text.isWordChar c = false

/-- No condition on a text. -/
def Anything (_ : List Char) : Prop := True

/-- Behind a text of the first sort the tokens are put without blanks, and in front of one of the second
sort they are cut off again. -/
structure Fits (before : List Char → Prop) (tokens : List Token) (after : List Char → Prop) : Prop where
  joins : ∀ text, before text → joinTokens text tokens = text ++ spelled tokens
  scans : ∀ rest, after rest → Scans (spelled tokens ++ rest) tokens rest

theorem Fits.append {before middle middle' after : List Char → Prop} {tokens others : List Token}
    (h : Fits before tokens middle) (hothers : Fits middle' others after)
    (hbefore : ∀ text, before text → middle' (text ++ spelled tokens))
    (hafter : ∀ rest, after rest → middle (spelled others ++ rest)) :
    Fits before (tokens ++ others) after where
  joins text htext := by
    have hsecond := hothers.joins _ (hbefore text htext)
    rw [← h.joins text htext] at hsecond
    rw [joinTokens, List.foldl_append, spelled_append, ← List.append_assoc, ← h.joins text htext]
    exact hsecond
  scans rest hrest := by
    rw [spelled_append, List.append_assoc]
    exact (h.scans _ (hafter rest hrest)).append (hothers.scans rest hrest)

theorem Fits.mono {before before' after after' : List Char → Prop} {tokens : List Token}
    (h : Fits before tokens after) (hbefore : ∀ text, before' text → before text)
    (hafter : ∀ rest, after' rest → after rest) : Fits before' tokens after' where
  joins text htext := h.joins text (hbefore text htext)
  scans rest hrest := h.scans rest (hafter rest hrest)

/-! ## Putting one token behind a text -/

theorem appendSpelling_of_open {text : List Char} (h : Open text) (spelling : List Char) :
    appendSpelling text spelling = text ++ spelling := by
  unfold appendSpelling
  split
  · rename_i last first hlast _
    have hword := h last hlast
    rw [needsBlank, hword, Bool.false_and]
    rfl
  · rfl

/-- The token is spelled with characters that are neither part of a word nor a quote. -/
structure IsPlain (token : Token) : Prop where
  ne_nil : token.text.toList ≠ []
  plain : ∀ c ∈ token.text.toList, Text.isWordChar c = false ∧ c ≠ '\'' ∧ c ≠ '"'

theorem isPlain_paren {c : Char} (h : c ∈ ['(', ')', ',']) : IsPlain ⟨singleKind c, String.ofList [c]⟩ := by
  have hplain : ∀ c ∈ ['(', ')', ','], Text.isWordChar c = false ∧ c ≠ '\'' ∧ c ≠ '"' := by decide
  constructor
  · simp
  · simpa using hplain c h

theorem isPlain_binary (op : BinaryOp) : IsPlain ⟨.operator, op.symbol⟩ := by
  cases op <;> exact ⟨by decide, by decide⟩

theorem isPlain_unary (op : UnaryOp) : IsPlain ⟨.operator, op.symbol⟩ := by
  cases op <;> exact ⟨by decide, by decide⟩

/-- An operand can be put behind such a token. -/
theorem IsPlain.open {token : Token} (h : IsPlain token) (text : List Char) :
    Open (text ++ spelled [token]) := by
  obtain ⟨initial, last, hlast⟩ := List.eq_nil_or_concat token.text.toList |>.resolve_left h.ne_nil
  rw [spelled_singleton, hlast, List.concat_eq_append, ← List.append_assoc]
  intro c hc
  rw [List.getLast?_concat, Option.mem_some_iff] at hc
  exact (h.plain c (by rw [hlast, ← hc]; simp)).1

/-- It can be put behind every text, in front of what it can be cut off from. -/
theorem IsPlain.fits {token : Token} (h : IsPlain token) {after : List Char → Prop}
    (hscans : ∀ rest, after rest → Scans (token.text.toList ++ rest) [token] rest) :
    Fits Anything [token] after where
  joins text _ := by
    rw [spelled_singleton]
    show appendSpelling text token.text.toList = _
    unfold appendSpelling
    split
    · rename_i last first _ hfirst
      obtain ⟨hword, hsingle, hdouble⟩ := h.plain first (List.mem_of_head? hfirst)
      rw [needsBlank, hword]
      simp [hsingle, hdouble]
    · rfl
  scans rest hrest := by
    rw [spelled_singleton]
    exact hscans rest hrest

theorem fits_paren {c : Char} (h : c ∈ ['(', ')', ',']) :
    Fits Anything [⟨singleKind c, String.ofList [c]⟩] Anything :=
  (isPlain_paren h).fits fun rest _ => by
    rw [String.toList_ofList]
    exact scans_paren h rest

theorem fits_binary (op : BinaryOp) : Fits Anything [⟨.operator, op.symbol⟩] Apart :=
  (isPlain_binary op).fits fun _ hrest => scans_binary op hrest

theorem fits_unary (op : UnaryOp) : Fits Anything [⟨.operator, op.symbol⟩] Apart :=
  (isPlain_unary op).fits fun _ hrest => scans_unary op hrest

/-! ## Operands -/

/-- The tokens can be put where an operand is expected and go on like one. -/
structure IsOperand (tokens : List Token) : Prop extends Fits Open tokens Ends where
  apart : ∀ rest, Apart (spelled tokens ++ rest)

theorem fits_open {token : Token} {after : List Char → Prop}
    (hscans : ∀ rest, after rest → Scans (token.text.toList ++ rest) [token] rest) :
    Fits Open [token] after where
  joins text htext := by
    rw [spelled_singleton]
    exact appendSpelling_of_open htext _
  scans rest hrest := by
    rw [spelled_singleton]
    exact hscans rest hrest

theorem isOperand_leaf {token : Token} (hkind : token.kind ∈ leafKinds) (h : IsWhole token) :
    IsOperand [token] where
  toFits := fits_open fun _ hrest => scans_whole hkind h hrest
  apart rest := by
    rw [spelled_singleton]
    exact apart_whole hkind h rest

/-- A literal ends in its quote, so that another one can be put behind it. -/
theorem open_closed {quote : Char} (hquote : Text.isWordChar quote = false) {cs : List Char}
    (h : isClosed quote cs = true) (text : List Char) : Open (text ++ cs) := by
  cases cs with
  | nil => cases h
  | cons c cs =>
    rw [isClosed, Bool.and_eq_true] at h
    obtain ⟨inner, rfl⟩ := eq_append_of_closes h.2
    intro d hd
    rw [← List.cons_append, ← List.append_assoc, List.getLast?_concat, Option.mem_some_iff] at hd
    rw [← hd]
    exact hquote

/-- String literals can stand next to each other. -/
theorem fits_strings {texts : List String} (h : ∀ text ∈ texts, isClosed '"' text.toList = true) :
    Fits Open (texts.map (⟨.string, ·⟩)) Anything := by
  induction texts with
  | nil => exact ⟨fun text _ => (List.append_nil text).symm, fun rest _ => Scans.nil rest⟩
  | cons text texts ih =>
    rw [List.forall_mem_cons] at h
    have hfirst : Fits Open [⟨.string, text⟩] Anything := fits_open fun rest _ => by
      have hscans := scans_string h.1 rest
      rwa [String.ofList_toList] at hscans
    refine hfirst.append (ih h.2) (fun before _ => ?_) fun _ _ => trivial
    rw [spelled_singleton]
    exact open_closed (by decide) h.1 before

/-- Two operands with a token between them. -/
theorem IsOperand.between {lefts rights : List Token} {token : Token} {after : List Char → Prop}
    (hleft : IsOperand lefts) (hplain : IsPlain token) (htoken : Fits Anything [token] after)
    (hends : ∀ rest, Ends (token.text.toList ++ rest))
    (hafter : ∀ rest, after (spelled rights ++ rest)) (hright : IsOperand rights) :
    IsOperand (lefts ++ token :: rights) where
  toFits := by
    -- whatever the left operand ends in, the token can be put behind it, and it leaves the text open
    have hsecond : Fits Anything (token :: rights) Ends :=
      htoken.append hright.toFits (fun text _ => hplain.open text) fun rest _ => hafter rest
    refine hleft.toFits.append hsecond (fun _ _ => trivial) fun rest _ => ?_
    rw [spelled, List.flatMap_cons, List.append_assoc]
    exact hends _
  apart rest := by
    rw [spelled_append, List.append_assoc]
    exact hleft.apart _

/-- An operand in parentheses can be put behind every text and in front of every text. -/
theorem IsOperand.fits_parens {tokens : List Token} (h : IsOperand tokens) :
    Fits Anything (opening :: (tokens ++ [closing])) Anything := by
  have hclosing : Fits Anything [closing] Anything := fits_paren (c := ')') (by decide)
  have hopening : Fits Anything [opening] Anything := fits_paren (c := '(') (by decide)
  have hinner : Fits Open (tokens ++ [closing]) Anything :=
    h.toFits.append hclosing (fun _ _ => trivial) fun _ _ => Ends.cons (by decide)
  exact hopening.append hinner (fun text _ => (isPlain_paren (c := '(') (by decide)).open text)
    fun _ _ => trivial

/-- A name in front of parentheses. -/
theorem IsOperand.call {name : Token} {tokens : List Token} (hname : IsOperand [name])
    (h : Fits Anything (opening :: tokens) Anything) : IsOperand (name :: opening :: tokens) where
  toFits := by
    refine (hname.toFits.append h (fun _ _ => trivial) fun rest _ => ?_).mono (fun _ h => h)
      fun _ _ => trivial
    exact Ends.cons (c := '(') (by decide)
  apart rest := by
    have hapart := hname.apart (spelled (opening :: tokens) ++ rest)
    rwa [← List.append_assoc, ← spelled_append] at hapart

/-! ## Expressions -/

mutual

theorem isOperand_primary : {tokens : List Token} → {e : Expr} → Primary tokens e →
    (∀ token ∈ tokens, IsWhole token) → IsOperand tokens
  | _, _, .number _, h | _, _, .char _, h | _, _, .identifier _, h =>
    isOperand_leaf (by simp [leafKinds]) (h _ (by simp))
  | _, _, .strings text texts, h => by
    have hclosed : ∀ text' ∈ text :: texts, isClosed '"' text'.toList = true := fun text' htext =>
      h ⟨.string, text'⟩ (List.mem_map_of_mem htext)
    refine ⟨(fits_strings hclosed).mono (fun _ h => h) fun _ _ => trivial, fun rest => ?_⟩
    -- an operator before the literals meets the first one only
    have hfirst := (isOperand_leaf (by simp [leafKinds]) (h ⟨.string, text⟩ (by simp))).apart
      (spelled (texts.map (⟨.string, ·⟩)) ++ rest)
    rwa [← List.append_assoc, ← spelled_append] at hfirst
  | _, _, .emptyCall name, h => by
    have hname : IsOperand [⟨.identifier, name⟩] := isOperand_leaf (by simp [leafKinds]) (h _ (by simp))
    have hopening : Fits Anything [opening] Anything := fits_paren (c := '(') (by decide)
    exact hname.call (hopening.append (fits_paren (c := ')') (by decide)) (fun _ _ => trivial)
      fun _ _ => trivial)
  | _, _, .call name harguments, h => by
    have hname : IsOperand [⟨.identifier, name⟩] := isOperand_leaf (by simp [leafKinds]) (h _ (by simp))
    have hinner := isOperand_arguments harguments fun token htoken => h token (by simp [htoken])
    exact hname.call hinner.fits_parens
  | _, _, .parens hlevel, h => by
    have hinner := isOperand_level hlevel fun token htoken => h token (by simp [htoken])
    refine ⟨hinner.fits_parens.mono (fun _ _ => trivial) fun _ _ => trivial, fun rest => ?_⟩
    intro c hc
    obtain rfl : '(' = c := by simpa [spelled] using hc
    decide
  | _, _, @Primary.unary _ op _ _ hop hprimary, h => by
    have hinner := isOperand_primary hprimary fun token htoken => h token (by simp [htoken])
    rw [← mem_signs.mp hop]
    refine ⟨((fits_unary op).append hinner.toFits (fun text _ => (isPlain_unary op).open text)
      fun rest _ => hinner.apart rest).mono (fun _ _ => trivial) fun _ h => h, fun rest => ?_⟩
    intro c hc
    cases op
    all_goals
      obtain rfl := Option.some.inj hc
      decide

theorem isOperand_level : {n : Nat} → {tokens : List Token} → {e : Expr} → Level n tokens e →
    (∀ token ∈ tokens, IsWhole token) → IsOperand tokens
  | _, _, _, .primary hprimary, h => isOperand_primary hprimary h
  | _, _, _, .tighter hlevel, h => isOperand_level hlevel h
  | _, _, _, @Level.binary _ _ op _ _ _ _ hop hleft hright, h => by
    have hlefts := isOperand_level hleft fun token htoken => h token (by simp [htoken])
    have hrights := isOperand_level hright fun token htoken => h token (by simp [htoken])
    rw [← (mem_operators.mp hop).1]
    exact hlefts.between (isPlain_binary op) (fits_binary op) (ends_symbol op) hrights.apart hrights

theorem isOperand_arguments : {tokens : List Token} → {arguments : List Expr} →
    Arguments tokens arguments → (∀ token ∈ tokens, IsWhole token) → IsOperand tokens
  | _, _, .last hlevel, h => isOperand_level hlevel h
  | _, _, .more hlevel harguments, h => by
    have hfirst := isOperand_level hlevel fun token htoken => h token (by simp [htoken])
    have hothers := isOperand_arguments harguments fun token htoken => h token (by simp [htoken])
    exact hfirst.between (isPlain_paren (c := ',') (by decide)) (fits_paren (c := ',') (by decide))
      (fun rest => Ends.cons (by decide)) (fun _ => trivial) hothers

end

theorem joinSpellings_eq (tokens : List Token) :
    joinSpellings (tokens.map (·.text)) = String.ofList (joinTokens [] tokens) := by
  rw [joinSpellings, List.foldl_map, joinTokens]

/-- The tokens of an expression are stored as a text that is cut into them, if each is cut off whole. -/
theorem ofText_of_isWhole {tokens : List Token} {e : Expr} (hread : Expr.ofTokens? tokens = some e)
    (h : ∀ token ∈ tokens, IsWhole token) : ofText (joinSpellings (tokens.map (·.text))) = tokens := by
  have hoperand := isOperand_level (ofTokens?_eq_some_iff.mp hread) h
  have htext : joinSpellings (tokens.map (·.text)) = String.ofList (spelled tokens) := by
    rw [joinSpellings_eq, hoperand.joins [] fun _ hc => by cases hc]
    rfl
  have hscans := hoperand.scans [] fun _ hc => by cases hc
  rw [List.append_nil] at hscans
  rw [htext]
  exact ofText_of_scans (by rwa [String.toList_ofList])

/-! ## What comes back -/

/-- The letters of names that every text can have. -/
def nondigits : List Char := "_abcdefghijklmnopqrstuvwxyzABCDEFGHIJKLMNOPQRSTUVWXYZ".toList

/-- Names of the basic character set are words. -/
theorem isWord_of_basic {c : Char} {cs : List Char} (hc : c ∈ nondigits)
    (hcs : cs ⊆ nondigits ++ decimalDigits) : IsWord (c :: cs) := by
  have hfirsts : ∀ c ∈ nondigits, Text.isBlank c = false ∧ (Text.isLetter c || c == '_') = true := by
    decide
  have hothers : ∀ c ∈ nondigits ++ decimalDigits, Text.isWordChar c = true := by decide
  exact .mk (hfirsts c hc).1 (hfirsts c hc).2 fun d hd => hothers d (hcs hd)

/-- The tokens of an expression, with number constants and closed literals, are the tokens of the text
that they are stored as, exactly if the names are words and no hexadecimal number has a sign. Then the text
is read to the expression. -/
theorem ofText_joinSpellings {tokens : List Token} {e : Expr}
    (hread : Expr.ofTokens? tokens = some e)
    (hnumbers : ∀ number, ⟨.number, number⟩ ∈ tokens → IsNumber number.toList)
    (hstrings : ∀ literal, ⟨.string, literal⟩ ∈ tokens → isClosed '"' literal.toList = true)
    (hchars : ∀ literal, ⟨.char, literal⟩ ∈ tokens → isClosed '\'' literal.toList = true) :
    (ofText (joinSpellings (tokens.map (·.text))) = tokens ↔
      (∀ name, ⟨.identifier, name⟩ ∈ tokens → IsWord name.toList) ∧
      (∀ number, ⟨.number, number⟩ ∈ tokens → ¬ IsSignedHexadecimal number.toList)) ∧
    ((∀ name, ⟨.identifier, name⟩ ∈ tokens → IsWord name.toList) →
      (∀ number, ⟨.number, number⟩ ∈ tokens → ¬ IsSignedHexadecimal number.toList) →
      Expr.ofText? (joinSpellings (tokens.map (·.text))) = some e) := by
  have hback : (∀ name, ⟨.identifier, name⟩ ∈ tokens → IsWord name.toList) →
      (∀ number, ⟨.number, number⟩ ∈ tokens → ¬ IsSignedHexadecimal number.toList) →
      ofText (joinSpellings (tokens.map (·.text))) = tokens := by
    intro hnames hsigns
    refine ofText_of_isWhole hread ?_
    rintro ⟨kind, text⟩ hmem
    cases kind with
    | number => exact ⟨hnumbers text hmem, hsigns text hmem⟩
    | string => exact hstrings text hmem
    | char => exact hchars text hmem
    | identifier => exact hnames text hmem
    | operator | paren | comma => trivial
  refine ⟨⟨fun heq => ⟨fun name hmem => ?_, fun number hmem => ?_⟩, fun h => hback h.1 h.2⟩,
    fun hnames hsigns => ?_⟩
  -- conversely no text has tokens of the two kinds that are left out
  · rw [← heq] at hmem
    exact isWord_of_mem_scan hmem
  · rw [← heq] at hmem
    exact not_isSignedHexadecimal_of_mem_scan hmem
  · rw [Expr.ofText?, hback hnames hsigns, hread]

/-- A sign ends a hexadecimal number, also in its exponent. -/
example : ofText "0x1p-3" = [⟨.number, "0x1p"⟩, ⟨.operator, "-"⟩, ⟨.number, "3"⟩] := by
  decide +kernel

/-- The tokens of a call behind a sign, with literals that stand next to each other. -/
def callTokens : List Token :=
  [⟨.operator, "-"⟩, ⟨.number, "1.5e-3f"⟩, ⟨.operator, "<<"⟩, ⟨.identifier, "at_2"⟩, opening,
    ⟨.string, "\"a\\\"\""⟩, ⟨.string, "\"b\""⟩, comma, ⟨.number, "0x.8p4"⟩, closing]

theorem ofText_joinSpellings_callTokens :
    ofText (joinSpellings (callTokens.map (·.text))) = callTokens ∧
    Expr.ofText? (joinSpellings (callTokens.map (·.text))) =
      some (.binary (.unary .minus (.number "1.5e-3f")) .shiftLeft
        (.call "at_2" [.string "\"a\\\"b\"", .number "0x.8p4"])) := by
  have hread : Expr.ofTokens? callTokens =
      some (.binary (.unary .minus (.number "1.5e-3f")) .shiftLeft
        (.call "at_2" [.string "\"a\\\"b\"", .number "0x.8p4"])) := by
    rfl
  have hall := ofText_joinSpellings hread ?_ ?_ ?_
  · have hnames : ∀ name, ⟨.identifier, name⟩ ∈ callTokens → IsWord name.toList := by
      intro name hmem
      obtain rfl : name = "at_2" := by simpa [callTokens] using hmem
      exact isWord_of_basic (c := 'a') (by decide) (by decide)
    have hsigns : ∀ number, ⟨.number, number⟩ ∈ callTokens → ¬ IsSignedHexadecimal number.toList := by
      intro number hmem
      obtain rfl | rfl : number = "1.5e-3f" ∨ number = "0x.8p4" := by simpa [callTokens] using hmem
      · decide
      · decide
    exact ⟨hall.1.mpr ⟨hnames, hsigns⟩, hall.2 hnames hsigns⟩
  · intro number hmem
    obtain rfl | rfl : number = "1.5e-3f" ∨ number = "0x.8p4" := by simpa [callTokens] using hmem
    · exact @IsNumber.floating ['1', '.', '5', 'e', '-', '3'] ['f']
        (@IsFloating.pointed ['1'] ['5'] ['e', '-', '3'] (by decide) (by decide) (by decide)
          (.inr (@IsExponent.mk 'e' ['-'] ['3'] (by decide) (by decide) (by decide) (by decide))))
        (by decide)
    · exact @IsNumber.hexadecimal ['0', 'x', '.', '8', 'p', '4'] []
        (@IsHexadecimalFloating.pointed 'x' [] ['8'] ['p', '4'] (by decide) (by decide) (by decide)
          (by decide) (@IsBinaryExponent.mk 'p' [] ['4'] (by decide) (by decide) (by decide) (by decide)))
        (by decide)
  · intro literal hmem
    obtain rfl | rfl : literal = "\"a\\\"\"" ∨ literal = "\"b\"" := by
      simpa [callTokens] using hmem
    · decide
    · decide
  · intro literal hmem
    simp [callTokens] at hmem

end CInterop.Macro.Token
