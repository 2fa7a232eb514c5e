import CInterop.Macro.Expr.Render
import CInterop.Proofs.Macro.Grammar
import CInterop.Proofs.Macro.Scanning
import CInterop.Proofs.Success

/-!
# Reading what was written

An expression that was read from a text, with constants of C for its numbers and closed literals, is
written to a text that is read to the same expression, with the counterparts of its numbers. Writing that
one gives the same text again. What cannot be written are octal numbers that are too long, and nothing else.

The proof goes by the tokens of the written form: the text is cut into exactly these, and they derive the
expression, each binary operation as one in parentheses.
-/

namespace CInterop.Macro.Expr

open Token Grammar

/-! ## Literals and names of an expression -/

mutual

/-- The literals and names in an expression from left to right, each as the token it is written as. -/
def leaves : Expr → List Token
  | number text => [⟨.number, text⟩]
  | string text => [⟨.string, text⟩]
  | char text => [⟨.char, text⟩]
  | identifier name => [⟨.identifier, name⟩]
  | unary _ operand => leaves operand
  | binary left _ right => leaves left ++ leaves right
  | call function arguments => ⟨.identifier, function⟩ :: argumentLeaves arguments

/-- The literals and names in a list of arguments. -/
def argumentLeaves : List Expr → List Token
  | [] => []
  | e :: rest => leaves e ++ argumentLeaves rest

end

mutual

/-- The expression with each of its numbers replaced by its counterpart. -/
def respell : Expr → Except Literal.Error Expr
  | number text => do return number (← Literal.convert text true)
  | string text => .ok (string text)
  | char text => .ok (char text)
  | identifier name => .ok (identifier name)
  | unary op operand => do return unary op (← respell operand)
  | binary left op right => do return binary (← respell left) op (← respell right)
  | call function arguments => do return call function (← respellAll arguments)

/-- The arguments with each of their numbers replaced by its counterpart. -/
def respellAll : List Expr → Except Literal.Error (List Expr)
  | [] => .ok []
  | e :: rest => do return (← respell e) :: (← respellAll rest)

end

/-! ## The written form -/

mutual

/-- The characters of an expression as it is written, with its numbers as they are. -/
def written : Expr → List Char
  | number text | string text | char text => text.toList
  | identifier name => name.toList
  | unary op operand => op.symbol.toList ++ written operand
  | binary left op right => '(' :: (written left ++ (op.symbol.toList ++ (written right ++ [')'])))
  | call function arguments =>
    function.toList ++ '(' :: ([','].intercalate (writtenAll arguments) ++ [')'])

/-- The characters of each argument. -/
def writtenAll : List Expr → List (List Char)
  | [] => []
  | e :: rest => written e :: writtenAll rest

end

mutual

/-- The tokens of an expression as it is written. -/
def tokens : Expr → List Token
  | number text => [⟨.number, text⟩]
  | string text => [⟨.string, text⟩]
  | char text => [⟨.char, text⟩]
  | identifier name => [⟨.identifier, name⟩]
  | unary op operand => ⟨.operator, op.symbol⟩ :: tokens operand
  | binary left op right =>
    opening :: ((tokens left ++ ⟨.operator, op.symbol⟩ :: tokens right) ++ [closing])
  | call function arguments =>
    ⟨.identifier, function⟩ :: opening :: ([comma].intercalate (tokensAll arguments) ++ [closing])

/-- The tokens of each argument. -/
def tokensAll : List Expr → List (List Token)
  | [] => []
  | e :: rest => tokens e :: tokensAll rest

end

/-! ## Cutting the written form -/

/-- No written expression begins with the second character of an operator. -/
theorem apart_written {e : Expr} (h : ∀ leaf ∈ leaves e, IsWhole leaf) (rest : List Char) :
    Apart (written e ++ rest) := by
  cases e with
  | number text => exact @apart_whole ⟨.number, text⟩ (by simp [leafKinds]) (h _ (by simp [leaves])) rest
  | string text => exact @apart_whole ⟨.string, text⟩ (by simp [leafKinds]) (h _ (by simp [leaves])) rest
  | char text => exact @apart_whole ⟨.char, text⟩ (by simp [leafKinds]) (h _ (by simp [leaves])) rest
  | identifier name =>
    exact @apart_whole ⟨.identifier, name⟩ (by simp [leafKinds]) (h _ (by simp [leaves])) rest
  | unary op operand =>
    intro d hd
    cases op
    all_goals
      obtain rfl := Option.some.inj hd
      decide
  | binary left op right =>
    intro d hd
    obtain rfl := Option.some.inj hd
    decide
  | call function arguments =>
    rw [written, List.append_assoc]
    exact @apart_whole ⟨.identifier, function⟩ (by simp [leafKinds]) (h _ (by simp [leaves])) _

mutual

/-- A written expression is cut into its tokens, whatever may follow an expression. -/
theorem scans_written : (e : Expr) → (∀ leaf ∈ leaves e, IsWhole leaf) → (rest : List Char) →
    Ends rest → Scans (written e ++ rest) (tokens e) rest
  | number text, h, _, hrest =>
    @scans_whole ⟨.number, text⟩ (by simp [leafKinds]) (h _ (by simp [leaves])) _ hrest
  | string text, h, _, hrest =>
    @scans_whole ⟨.string, text⟩ (by simp [leafKinds]) (h _ (by simp [leaves])) _ hrest
  | char text, h, _, hrest =>
    @scans_whole ⟨.char, text⟩ (by simp [leafKinds]) (h _ (by simp [leaves])) _ hrest
  | identifier name, h, _, hrest =>
    @scans_whole ⟨.identifier, name⟩ (by simp [leafKinds]) (h _ (by simp [leaves])) _ hrest
  | unary op operand, h, rest, hrest => by
    have hoperands : ∀ leaf ∈ leaves operand, IsWhole leaf := h
    have hoperand := scans_written operand hoperands rest hrest
    rw [written, List.append_assoc]
    exact (scans_unary op (apart_written hoperands rest)).append hoperand
  | binary left op right, h, rest, hrest => by
    have hlefts : ∀ leaf ∈ leaves left, IsWhole leaf := fun leaf hleaf =>
      h leaf (by simp [leaves, hleaf])
    have hrights : ∀ leaf ∈ leaves right, IsWhole leaf := fun leaf hleaf =>
      h leaf (by simp [leaves, hleaf])
    have hclosing : Scans (')' :: rest) [closing] rest := scans_paren (by decide) rest
    have hright := scans_written right hrights (')' :: rest) (Ends.cons (by decide))
    have hsymbol := scans_binary op (apart_written hrights (')' :: rest))
    have hleft := scans_written left hlefts (op.symbol.toList ++ (written right ++ ')' :: rest))
      (ends_symbol op _)
    have hopening := scans_paren (c := '(') (by decide)
      (written left ++ (op.symbol.toList ++ (written right ++ ')' :: rest)))
    have hall := hopening.append (hleft.append (hsymbol.append (hright.append hclosing)))
    have hwritten : written (binary left op right) ++ rest
        = '(' :: (written left ++ (op.symbol.toList ++ (written right ++ ')' :: rest))) := by
      simp [written]
    have htokens : tokens (binary left op right)
        = [opening] ++ (tokens left ++ ([⟨.operator, op.symbol⟩] ++ (tokens right ++ [closing]))) := by
      simp [tokens]
    rw [hwritten, htokens]
    exact hall
  | call function arguments, h, rest, hrest => by
    have harguments : ∀ leaf ∈ argumentLeaves arguments, IsWhole leaf := fun leaf hleaf =>
      h leaf (by simp [leaves, hleaf])
    have hclosing : Scans (')' :: rest) [closing] rest := scans_paren (by decide) rest
    have hinner := scans_arguments arguments harguments (')' :: rest) (Ends.cons (by decide))
    have hopening := scans_paren (c := '(') (by decide)
      ([','].intercalate (writtenAll arguments) ++ ')' :: rest)
    have hends : Ends ('(' :: ([','].intercalate (writtenAll arguments) ++ ')' :: rest)) :=
      Ends.cons (by decide)
    have hfunction :=
      @scans_whole ⟨.identifier, function⟩ (by simp [leafKinds]) (h _ (by simp [leaves])) _ hends
    have hall := hfunction.append (hopening.append (hinner.append hclosing))
    have hwritten : written (call function arguments) ++ rest
        = function.toList ++ '(' :: ([','].intercalate (writtenAll arguments) ++ ')' :: rest) := by
      simp [written]
    rw [hwritten]
    exact hall

/-- Written arguments are cut into their tokens. -/
theorem scans_arguments : (arguments : List Expr) →
    (∀ leaf ∈ argumentLeaves arguments, IsWhole leaf) → (rest : List Char) → Ends rest →
    Scans ([','].intercalate (writtenAll arguments) ++ rest)
      ([comma].intercalate (tokensAll arguments)) rest
  | [], _, rest, _ => Scans.nil rest
  | [e], h, rest, hrest => by
    have hscans := scans_written e (fun leaf hleaf => h leaf (by simp [argumentLeaves, hleaf])) rest hrest
    rw [writtenAll, writtenAll, tokensAll, tokensAll, List.intercalate_singleton,
      List.intercalate_singleton]
    exact hscans
  | e :: other :: more, h, rest, hrest => by
    have hmore : ∀ leaf ∈ argumentLeaves (other :: more), IsWhole leaf := fun leaf hleaf =>
      h leaf (by rw [argumentLeaves]; exact List.mem_append_right _ hleaf)
    have hothers := scans_arguments (other :: more) hmore rest hrest
    have hcomma := scans_paren (c := ',') (by decide)
      ([','].intercalate (writtenAll (other :: more)) ++ rest)
    have hfirst := scans_written e (fun leaf hleaf => h leaf (by simp [argumentLeaves, hleaf]))
      (',' :: ([','].intercalate (writtenAll (other :: more)) ++ rest)) (Ends.cons (by decide))
    have hall := hfirst.append (hcomma.append hothers)
    have hwritten : [','].intercalate (writtenAll (e :: other :: more)) ++ rest
        = written e ++ ',' :: ([','].intercalate (writtenAll (other :: more)) ++ rest) := by
      simp [writtenAll]
    have htokens : [comma].intercalate (tokensAll (e :: other :: more))
        = tokens e ++ ([comma] ++ [comma].intercalate (tokensAll (other :: more))) := by
      simp [tokensAll]
    rw [hwritten, htokens]
    exact hall

end

/-! ## Reading the tokens -/

/-- A closed literal alone is the literal it is joined to. -/
theorem joined_singleton {text : String} (h : isClosed '"' text.toList = true) : joined [text] = text := by
  rw [← String.toList_inj]
  cases hcons : text.toList with
  | nil =>
    rw [hcons] at h
    cases h
  | cons c cs =>
    rw [hcons, isClosed, Bool.and_eq_true, beq_iff_eq] at h
    obtain ⟨rfl, hcloses⟩ := h
    obtain ⟨inner, rfl⟩ := eq_append_of_closes hcloses
    simp [joined, hcons]

mutual

/-- The tokens of an expression derive it. -/
theorem primary_tokens : (e : Expr) → (∀ leaf ∈ leaves e, IsWhole leaf) → Primary (tokens e) e
  | number text, _ => .number text
  | string text, h => by
    have hclosed : isClosed '"' text.toList = true := h ⟨.string, text⟩ (by simp [leaves])
    have hprimary := Primary.strings text []
    rw [joined_singleton hclosed] at hprimary
    exact hprimary
  | char text, _ => .char text
  | identifier name, _ => .identifier name
  | unary op operand, h => .unary (mem_signs.mpr rfl) (primary_tokens operand h)
  | binary left op right, h => by
    have hlevel := level_le op
    have hleft := primary_tokens left fun leaf hleaf => h leaf (by simp [leaves, hleaf])
    have hright := primary_tokens right fun leaf hleaf => h leaf (by simp [leaves, hleaf])
    have hbinary : Level op.level (tokens left ++ ⟨.operator, op.symbol⟩ :: tokens right)
        (.binary left op right) :=
      .binary (mem_operators.mpr ⟨rfl, rfl⟩) (.mono (by omega) (.primary hleft))
        (.mono (by omega) (.primary hright))
    exact .parens (hbinary.mono (by cases op <;> decide))
  | call function arguments, h => by
    have harguments := arguments_tokens arguments fun leaf hleaf => h leaf (by simp [leaves, hleaf])
    by_cases hempty : arguments = []
    · subst hempty
      exact .emptyCall function
    · exact .call function (harguments hempty)

/-- The tokens of arguments derive them, if there are any. -/
theorem arguments_tokens : (arguments : List Expr) →
    (∀ leaf ∈ argumentLeaves arguments, IsWhole leaf) → arguments ≠ [] →
    Arguments ([comma].intercalate (tokensAll arguments)) arguments
  | [], _, hne => absurd rfl hne
  | [e], h, _ => by
    have hfirst := primary_tokens e fun leaf hleaf => h leaf (by simp [argumentLeaves, hleaf])
    rw [tokensAll, tokensAll, List.intercalate_singleton]
    exact .last (.mono (by decide) (.primary hfirst))
  | e :: other :: more, h, _ => by
    have hmore : ∀ leaf ∈ argumentLeaves (other :: more), IsWhole leaf := fun leaf hleaf =>
      h leaf (by rw [argumentLeaves]; exact List.mem_append_right _ hleaf)
    have hfirst := primary_tokens e fun leaf hleaf => h leaf (by simp [argumentLeaves, hleaf])
    have hothers := arguments_tokens (other :: more) hmore (List.cons_ne_nil _ _)
    have htokens : [comma].intercalate (tokensAll (e :: other :: more))
        = tokens e ++ comma :: [comma].intercalate (tokensAll (other :: more)) := by
      simp [tokensAll]
    rw [htokens]
    exact .more (.mono (by decide) (.primary hfirst)) hothers

end

/-- An expression whose leaves are spelled well is read from its written form. -/
theorem ofText?_written {e : Expr} (h : ∀ leaf ∈ leaves e, IsWhole leaf) :
    ofText? (String.ofList (written e)) = some e := by
  have hscans := scans_written e h [] (fun _ hc => by cases hc)
  rw [List.append_nil, ← String.toList_ofList (l := written e)] at hscans
  unfold ofText?
  rw [ofText_of_scans hscans]
  exact ofTokens?_eq_some_iff.mpr (.mono (by decide) (.primary (primary_tokens e h)))

/-! ## Leaves that were read -/

mutual

/-- The leaves of an expression are among its tokens, apart from string literals, which were joined. -/
theorem mem_of_primary : {tokens : List Token} → {e : Expr} → Primary tokens e → {leaf : Token} →
    leaf.kind ≠ .string → leaf ∈ leaves e → leaf ∈ tokens
  | _, _, .number _, _, _, h | _, _, .char _, _, _, h | _, _, .identifier _, _, _, h => h
  | _, _, .strings _ _, _, hkind, h => by
    rw [List.mem_singleton.mp h] at hkind
    exact absurd rfl hkind
  | _, _, .emptyCall _, _, _, h => by
    rw [List.mem_singleton.mp h]
    exact List.mem_cons_self
  | _, _, .call _ harguments, _, hkind, h => by
    rcases List.mem_cons.mp h with rfl | hmem
    · exact List.mem_cons_self
    · have hinner := mem_of_arguments harguments hkind hmem
      simp [hinner]
  | _, _, .parens hlevel, _, hkind, h => by
    have hinner := mem_of_level hlevel hkind h
    simp [hinner]
  | _, _, .unary _ hprimary, _, hkind, h => List.mem_cons_of_mem _ (mem_of_primary hprimary hkind h)

theorem mem_of_level : {n : Nat} → {tokens : List Token} → {e : Expr} → Level n tokens e →
    {leaf : Token} → leaf.kind ≠ .string → leaf ∈ leaves e → leaf ∈ tokens
  | _, _, _, .primary hprimary, _, hkind, h => mem_of_primary hprimary hkind h
  | _, _, _, .tighter hlevel, _, hkind, h => mem_of_level hlevel hkind h
  | _, _, _, .binary _ hleft hright, _, hkind, h => by
    rcases List.mem_append.mp h with hmem | hmem
    · exact List.mem_append_left _ (mem_of_level hleft hkind hmem)
    · exact List.mem_append_right _ (List.mem_cons_of_mem _ (mem_of_level hright hkind hmem))

theorem mem_of_arguments : {tokens : List Token} → {arguments : List Expr} →
    Arguments tokens arguments → {leaf : Token} → leaf.kind ≠ .string →
    leaf ∈ argumentLeaves arguments → leaf ∈ tokens
  | _, _, .last hlevel, _, hkind, h => by
    rw [argumentLeaves, argumentLeaves, List.append_nil] at h
    exact mem_of_level hlevel hkind h
  | _, _, .more hlevel hothers, _, hkind, h => by
    rcases List.mem_append.mp h with hmem | hmem
    · exact List.mem_append_left _ (mem_of_level hlevel hkind hmem)
    · exact List.mem_append_right _ (List.mem_cons_of_mem _ (mem_of_arguments hothers hkind hmem))

end

/-- The names in an expression that was read are words of the text. -/
theorem isWord_of_ofText? {text : String} {e : Expr} (h : ofText? text = some e) {name : String}
    (hname : ⟨.identifier, name⟩ ∈ leaves e) : IsWord name.toList :=
  isWord_of_mem_scan (mem_of_level (ofTokens?_eq_some_iff.mp h) TokenKind.noConfusion hname)

/-- The leaves of an expression that was read are whole, if its numbers are constants and its literals are
closed. -/
theorem isWhole_of_ofText? {text : String} {e : Expr} (hread : ofText? text = some e)
    (hnumbers : ∀ number, ⟨.number, number⟩ ∈ leaves e → Literal.IsNumber number.toList)
    (hstrings : ∀ literal, ⟨.string, literal⟩ ∈ leaves e → isClosed '"' literal.toList = true)
    (hchars : ∀ literal, ⟨.char, literal⟩ ∈ leaves e → isClosed '\'' literal.toList = true) :
    ∀ leaf ∈ leaves e, IsWhole leaf := by
  rintro ⟨kind, spelling⟩ hleaf
  cases kind with
  | number =>
    have hmem := mem_of_level (ofTokens?_eq_some_iff.mp hread) TokenKind.noConfusion hleaf
    exact ⟨hnumbers spelling hleaf, not_isSignedHexadecimal_of_mem_scan hmem⟩
  | string => exact hstrings spelling hleaf
  | char => exact hchars spelling hleaf
  | identifier => exact isWord_of_ofText? hread hleaf
  | operator | paren | comma => trivial

/-! ## Respelling -/

theorem convertChars_number {cs : List Char} (h : Literal.IsNumber cs)
    (hsigns : ¬ IsSignedHexadecimal cs) :
    (∃ form, Literal.convertChars cs true = .ok form ∧
      (Literal.IsNumber form ∧ ¬ IsSignedHexadecimal form) ∧ Literal.convertChars form true = .ok form) ∨
    (Literal.convertChars cs true = .error .tooLong ∧ ∃ body suffix,
      cs = body ++ suffix ∧ suffix ∈ Literal.integerSuffixes ∧ Literal.IsOverlong body) := by
  cases h with
  | @integer body suffix n hbody hsuffix =>
    by_cases hlong : Literal.IsOverlong body
    · exact .inr ⟨Literal.convertChars_overlong hlong hsuffix true, body, suffix, rfl, hsuffix, hlong⟩
    · obtain ⟨form, hform, hconvert⟩ := hbody.convertChars hlong hsuffix true
      obtain ⟨-, htarget, hstays⟩ := Literal.integerSuffixes_spec suffix hsuffix
      have hagain := hform.convertChars htarget true
      rw [Literal.keptSuffix, if_pos rfl, hstays] at hagain
      exact .inl ⟨_, hconvert, ⟨.integer hform.denotes.1 htarget,
        not_isSignedHexadecimal_integer hform.denotes.1 htarget⟩, hagain⟩
  | @floating body suffix hbody hsuffix =>
    obtain ⟨-, htarget, hstays⟩ := Literal.floatingSuffixes_spec suffix hsuffix
    have hagain := hbody.convertChars htarget
    rw [hstays] at hagain
    exact .inl ⟨_, hbody.convertChars hsuffix, ⟨.floating hbody htarget,
      not_isSignedHexadecimal_floating hbody _⟩, hagain⟩
  | hexadecimal hbody hsuffix =>
    have hsuffixes : Literal.hexadecimalFloatingSuffixes ⊆ Literal.floatingSuffixes := by decide
    obtain ⟨letters, hletters, hconvert, hagain⟩ := Literal.convertChars_hexadecimal hbody hsuffix
    exact .inl ⟨_, hconvert, ⟨.hexadecimal hbody (hsuffixes hletters),
      not_isSignedHexadecimal_suffix hbody (hsuffixes hletters) hsigns⟩, hagain⟩

/-- The counterpart of a number constant that is cut off in one piece is one too, and its own counterpart.
Only an overlong constant has none. -/
theorem convert_number {number : String} (h : IsWhole ⟨.number, number⟩) :
    (∃ form, Literal.convert number true = .ok form ∧ IsWhole ⟨.number, form⟩ ∧
      Literal.convert form true = .ok form) ∨
    (Literal.convert number true = .error .tooLong ∧ ∃ body suffix,
      number = String.ofList (body ++ suffix) ∧ suffix ∈ Literal.integerSuffixes ∧
        Literal.IsOverlong body) := by
  rcases convertChars_number h.1 h.2 with
    ⟨form, hconvert, hwhole, hagain⟩ | ⟨herror, body, suffix, htext, hoverlong⟩
  · refine .inl ⟨String.ofList form, by rw [Literal.convert, hconvert]; rfl, ?_, ?_⟩
    · rwa [← String.toList_ofList (l := form)] at hwhole
    · rw [Literal.convert, String.toList_ofList, hagain]
      rfl
  · refine .inr ⟨by rw [Literal.convert, herror]; rfl, body, suffix, ?_, hoverlong⟩
    rw [← htext, String.ofList_toList]

/-- Every number of the expression has a counterpart. -/
def Writable (e : Expr) : Prop :=
  ∀ number, ⟨.number, number⟩ ∈ leaves e → ∃ form, Literal.convert number true = .ok form

mutual

/-- An expression whose numbers have counterparts has a respelling, whose leaves are cut off in one piece as
well, and which stays as it is. -/
theorem respell_whole : (e : Expr) → (∀ leaf ∈ leaves e, IsWhole leaf) → e.Writable →
    ∃ e', respell e = .ok e' ∧ (∀ leaf ∈ leaves e', IsWhole leaf) ∧ respell e' = .ok e'
  | number text, h, hwritable => by
    have hmem : (⟨.number, text⟩ : Token) ∈ leaves (number text) := List.mem_singleton.mpr rfl
    rcases convert_number (h _ hmem) with ⟨form, hconvert, hwhole, hagain⟩ | ⟨herror, -⟩
    · refine ⟨number form, ?_, fun leaf hleaf => ?_, ?_⟩
      · rw [respell, hconvert]
        rfl
      · rw [List.mem_singleton.mp hleaf]
        exact hwhole
      · rw [respell, hagain]
        rfl
    · obtain ⟨form, hconvert⟩ := hwritable text hmem
      rw [herror] at hconvert
      cases hconvert
  | string text, h, _ => ⟨string text, rfl, h, rfl⟩
  | char text, h, _ => ⟨char text, rfl, h, rfl⟩
  | identifier name, h, _ => ⟨identifier name, rfl, h, rfl⟩
  | unary op operand, h, hwritable => by
    obtain ⟨operand', hrespell, hwhole, hagain⟩ := respell_whole operand h hwritable
    refine ⟨unary op operand', ?_, hwhole, ?_⟩
    · rw [respell, hrespell]
      rfl
    · rw [respell, hagain]
      rfl
  | binary left op right, h, hwritable => by
    obtain ⟨left', hleft, hlefts, hleftAgain⟩ := respell_whole left
      (fun leaf hleaf => h leaf (List.mem_append_left _ hleaf))
      fun number hmem => hwritable number (List.mem_append_left _ hmem)
    obtain ⟨right', hright, hrights, hrightAgain⟩ := respell_whole right
      (fun leaf hleaf => h leaf (List.mem_append_right _ hleaf))
      fun number hmem => hwritable number (List.mem_append_right _ hmem)
    refine ⟨binary left' op right', ?_, fun leaf hleaf => ?_, ?_⟩
    · rw [respell, hleft, hright]
      rfl
    · rcases List.mem_append.mp hleaf with hmem | hmem
      · exact hlefts leaf hmem
      · exact hrights leaf hmem
    · rw [respell, hleftAgain, hrightAgain]
      rfl
  | call function arguments, h, hwritable => by
    obtain ⟨arguments', hrespell, hwhole, hagain⟩ := respell_arguments arguments
      (fun leaf hleaf => h leaf (List.mem_cons_of_mem _ hleaf))
      fun number hmem => hwritable number (List.mem_cons_of_mem _ hmem)
    refine ⟨call function arguments', ?_, fun leaf hleaf => ?_, ?_⟩
    · rw [respell, hrespell]
      rfl
    · rcases List.mem_cons.mp hleaf with rfl | hmem
      · exact h _ (by simp [leaves])
      · exact hwhole leaf hmem
    · rw [respell, hagain]
      rfl

theorem respell_arguments : (arguments : List Expr) →
    (∀ leaf ∈ argumentLeaves arguments, IsWhole leaf) →
    (∀ number, ⟨.number, number⟩ ∈ argumentLeaves arguments →
      ∃ form, Literal.convert number true = .ok form) →
    ∃ arguments', respellAll arguments = .ok arguments' ∧
      (∀ leaf ∈ argumentLeaves arguments', IsWhole leaf) ∧
      respellAll arguments' = .ok arguments'
  | [], _, _ => ⟨[], rfl, fun _ h => absurd h List.not_mem_nil, rfl⟩
  | e :: rest, h, hwritable => by
    obtain ⟨e', hfirst, hfirsts, hfirstAgain⟩ := respell_whole e
      (fun leaf hleaf => h leaf (List.mem_append_left _ hleaf))
      fun number hmem => hwritable number (List.mem_append_left _ hmem)
    obtain ⟨rest', hrest, hrests, hrestAgain⟩ := respell_arguments rest
      (fun leaf hleaf => h leaf (List.mem_append_right _ hleaf))
      fun number hmem => hwritable number (List.mem_append_right _ hmem)
    refine ⟨e' :: rest', ?_, fun leaf hleaf => ?_, ?_⟩
    · rw [respellAll, hfirst, hrest]
      rfl
    · rcases List.mem_append.mp hleaf with hmem | hmem
      · exact hfirsts leaf hmem
      · exact hrests leaf hmem
    · rw [respellAll, hfirstAgain, hrestAgain]
      rfl

end

/-! ## Writing and reading -/

mutual

/-- An expression is written like its respelling with the numbers as they are. -/
theorem render_of_respell : (e : Expr) → {e' : Expr} → respell e = .ok e' →
    render e = .ok (String.ofList (written e'))
  | number text, _, h => by
    rw [respell, bind_eq_ok] at h
    obtain ⟨form, hconvert, heq⟩ := h
    cases heq
    rw [render, hconvert, written, String.ofList_toList]
  | string text, _, h | char text, _, h | identifier name, _, h => by
    cases h
    rw [render, written, String.ofList_toList]
  | unary op operand, _, h => by
    rw [respell, bind_eq_ok] at h
    obtain ⟨operand', hrespell, heq⟩ := h
    cases heq
    rw [render, render_of_respell operand hrespell, written, String.ofList_append,
      String.ofList_toList]
    rfl
  | binary left op right, _, h => by
    simp only [respell, bind_eq_ok] at h
    obtain ⟨left', hleft, right', hright, heq⟩ := h
    cases heq
    rw [render, render_of_respell left hleft, render_of_respell right hright]
    refine congrArg Except.ok (String.toList_inj.mp ?_)
    simp [written]
  | call function arguments, _, h => by
    rw [respell, bind_eq_ok] at h
    obtain ⟨arguments', hrespell, heq⟩ := h
    cases heq
    rw [render, renderAll_of_respellAll arguments hrespell]
    refine congrArg Except.ok (String.toList_inj.mp ?_)
    simp [written, String.toList_intercalate]

theorem renderAll_of_respellAll : (arguments : List Expr) → {arguments' : List Expr} →
    respellAll arguments = .ok arguments' →
    renderAll arguments = .ok ((writtenAll arguments').map String.ofList)
  | [], _, h => by
    cases h
    rfl
  | e :: rest, _, h => by
    simp only [respellAll, bind_eq_ok] at h
    obtain ⟨e', hfirst, rest', hrest, heq⟩ := h
    cases heq
    rw [renderAll, render_of_respell e hfirst, renderAll_of_respellAll rest hrest]
    rfl

end

/-! ## What can be written -/

/-- Whether a number has a counterpart does not depend on its suffix being kept. -/
theorem exists_convert {text form : String} (h : Literal.convert text true = .ok form)
    (keepSuffix : Bool) : ∃ form', Literal.convert text keepSuffix = .ok form' := by
  cases keepSuffix with
  | true => exact ⟨form, h⟩
  | false =>
    unfold Literal.convert Literal.convertChars at h ⊢
    split at h
    · rename_i hfloating
      rw [if_pos hfloating]
      exact ⟨_, rfl⟩
    · rename_i hfloating
      rw [if_neg hfloating]
      dsimp only at h ⊢
      split at h
      · rename_i hradix
        rw [if_pos hradix]
        exact ⟨_, rfl⟩
      · rename_i hradix
        rw [if_neg hradix]
        cases hdigits : Literal.decimalForm
          (text.toList.take (text.toList.length - (Literal.integerSuffix text.toList).length)) with
        | error error =>
          rw [hdigits] at h
          cases h
        | ok digits => exact ⟨_, rfl⟩

mutual

/-- An expression can be written if its numbers have counterparts. -/
theorem exists_render : (e : Expr) → e.Writable → ∃ text, render e = .ok text
  | number text, h => h text (List.mem_singleton.mpr rfl)
  | string text, _ | char text, _ | identifier name, _ => ⟨_, rfl⟩
  | unary op operand, h => by
    obtain ⟨text, hrender⟩ := exists_render operand h
    rw [render, hrender]
    exact ⟨_, rfl⟩
  | binary left op right, h => by
    obtain ⟨first, hleft⟩ := exists_render left fun number hmem => h number (List.mem_append_left _ hmem)
    obtain ⟨second, hright⟩ :=
      exists_render right fun number hmem => h number (List.mem_append_right _ hmem)
    rw [render, hleft, hright]
    exact ⟨_, rfl⟩
  | call function arguments, h => by
    obtain ⟨texts, hrender⟩ :=
      exists_renderAll arguments fun number hmem => h number (List.mem_cons_of_mem _ hmem)
    rw [render, hrender]
    exact ⟨_, rfl⟩

theorem exists_renderAll : (arguments : List Expr) →
    (∀ number, ⟨.number, number⟩ ∈ argumentLeaves arguments →
      ∃ form, Literal.convert number true = .ok form) →
    ∃ texts, renderAll arguments = .ok texts
  | [], _ => ⟨[], rfl⟩
  | e :: rest, h => by
    obtain ⟨first, hfirst⟩ := exists_render e fun number hmem => h number (List.mem_append_left _ hmem)
    obtain ⟨others, hrest⟩ :=
      exists_renderAll rest fun number hmem => h number (List.mem_append_right _ hmem)
    rw [renderAll, hfirst, hrest]
    exact ⟨_, rfl⟩

end

/-- So can a constant of any type. -/
theorem exists_renderConstant (type : String) {e : Expr} (h : e.Writable) :
    ∃ text, renderConstant type e = .ok text := by
  obtain ⟨text, hrender⟩ := exists_render e h
  unfold renderConstant
  split
  · exact ⟨text, hrender⟩
  · split
    · exact ⟨_, rfl⟩
    · exact ⟨_, rfl⟩
    · obtain ⟨form, hform⟩ := h _ (List.mem_singleton.mpr rfl)
      exact exists_convert hform false
    · rw [hrender]
      split <;> exact ⟨_, rfl⟩

/-! ## What cannot be written -/

mutual

/-- Writing an expression fails with an overlong number, unless all of its numbers have counterparts. -/
theorem writable_or_tooLong : (e : Expr) → (∀ leaf ∈ leaves e, IsWhole leaf) →
    e.Writable ∨ render e = .error .tooLong
  | number text, h => by
    rcases convert_number (h ⟨.number, text⟩ (List.mem_singleton.mpr rfl)) with
      ⟨form, hconvert, -⟩ | ⟨herror, -⟩
    · left
      intro number hmem
      cases List.mem_singleton.mp hmem
      exact ⟨form, hconvert⟩
    · right
      rw [render, herror]
  | string text, _ | char text, _ | identifier name, _ =>
    .inl fun number hmem => nomatch List.mem_singleton.mp hmem
  | unary op operand, h => by
    rcases writable_or_tooLong operand h with hwritable | herror
    · exact .inl hwritable
    · right
      rw [render, herror]
      rfl
  | binary left op right, h => by
    rcases writable_or_tooLong left fun leaf hleaf => h leaf (List.mem_append_left _ hleaf) with
      hleft | herror
    · rcases writable_or_tooLong right fun leaf hleaf => h leaf (List.mem_append_right _ hleaf) with
        hright | herror
      · exact .inl fun number hmem => (List.mem_append.mp hmem).elim (hleft number) (hright number)
      · -- the left operand is written before the right one fails
        obtain ⟨text, hrender⟩ := exists_render left hleft
        right
        rw [render, hrender, herror]
        rfl
    · right
      rw [render, herror]
      rfl
  | call function arguments, h => by
    rcases arguments_writable_or_tooLong arguments fun leaf hleaf =>
      h leaf (List.mem_cons_of_mem _ hleaf) with hwritable | herror
    · left
      intro number hmem
      rcases List.mem_cons.mp hmem with heq | hmem
      · cases heq
      · exact hwritable number hmem
    · right
      rw [render, herror]
      rfl

theorem arguments_writable_or_tooLong : (arguments : List Expr) →
    (∀ leaf ∈ argumentLeaves arguments, IsWhole leaf) →
    (∀ number, ⟨.number, number⟩ ∈ argumentLeaves arguments →
      ∃ form, Literal.convert number true = .ok form) ∨ renderAll arguments = .error .tooLong
  | [], _ => .inl fun _ hmem => absurd hmem List.not_mem_nil
  | e :: rest, h => by
    rcases writable_or_tooLong e fun leaf hleaf => h leaf (List.mem_append_left _ hleaf) with
      hfirst | herror
    · rcases arguments_writable_or_tooLong rest fun leaf hleaf =>
        h leaf (List.mem_append_right _ hleaf) with hrest | herror
      · exact .inl fun number hmem => (List.mem_append.mp hmem).elim (hfirst number) (hrest number)
      · obtain ⟨text, hrender⟩ := exists_render e hfirst
        right
        rw [renderAll, hrender, herror]
        rfl
    · right
      rw [renderAll, herror]
      rfl

end

/-- An expression without overlong numbers can be written. -/
theorem writable_of_whole {e : Expr} (h : ∀ leaf ∈ leaves e, IsWhole leaf)
    (hshort : ∀ body suffix, ⟨.number, String.ofList (body ++ suffix)⟩ ∈ leaves e →
      suffix ∈ Literal.integerSuffixes → ¬ Literal.IsOverlong body) : e.Writable := by
  intro number hmem
  rcases convert_number (h _ hmem) with ⟨form, hconvert, -⟩ | ⟨-, body, suffix, rfl, hsuffix, hlong⟩
  · exact ⟨form, hconvert⟩
  · exact absurd hlong (hshort body suffix hmem hsuffix)

/-! ## Reading back what was read -/

/-- An expression that was read, with number constants and closed literals, is written to a text that is
read to the same tree with the counterparts of its numbers. Writing that one again gives the same text. The
one exception are octal numbers that are overlong: an expression that has one is not written at all. -/
theorem ofText?_render {text : String} {e : Expr} (hread : ofText? text = some e)
    (hnumbers : ∀ number, ⟨.number, number⟩ ∈ leaves e → Literal.IsNumber number.toList)
    (hstrings : ∀ literal, ⟨.string, literal⟩ ∈ leaves e → isClosed '"' literal.toList = true)
    (hchars : ∀ literal, ⟨.char, literal⟩ ∈ leaves e → isClosed '\'' literal.toList = true) :
    (∀ body suffix, ⟨.number, String.ofList (body ++ suffix)⟩ ∈ leaves e →
      suffix ∈ Literal.integerSuffixes → Literal.IsOverlong body → render e = .error .tooLong) ∧
    ((∀ body suffix, ⟨.number, String.ofList (body ++ suffix)⟩ ∈ leaves e →
        suffix ∈ Literal.integerSuffixes → ¬ Literal.IsOverlong body) →
      ∃ e' rendered, respell e = .ok e' ∧ render e = .ok rendered ∧ ofText? rendered = some e' ∧
        render e' = .ok rendered) := by
  have hwhole := isWhole_of_ofText? hread hnumbers hstrings hchars
  refine ⟨fun body suffix hmem hsuffix hlong => ?_, fun hshort => ?_⟩
  · refine (writable_or_tooLong e hwhole).resolve_left fun hwritable => ?_
    obtain ⟨form, hconvert⟩ := hwritable _ hmem
    rw [Literal.convert, String.toList_ofList, Literal.convertChars_overlong hlong hsuffix] at hconvert
    cases hconvert
  · obtain ⟨e', hrespell, hwhole', hagain⟩ := respell_whole e hwhole (writable_of_whole hwhole hshort)
    exact ⟨e', String.ofList (written e'), hrespell, render_of_respell e hrespell,
      ofText?_written hwhole', render_of_respell e' hagain⟩

/-- What a text with constants of several forms, adjacent strings and operators before operators is read
to. -/
def mixed : Expr :=
  binary (unary .complement (number "0xeL")) .sub
    (binary (binary (unary .minus (number "1.5e+2L")) .shiftLeft (number "017u")) .mul
      (call "f" [char "'\\''", string "\"a\\\"b\"",
        binary (identifier "x") .equal (unary .not (identifier "y"))]))

/-- An octal number of that many digits. -/
def sevens (k : Nat) : Expr := number (String.ofList ('0' :: List.replicate k '7'))

theorem sevens_subset (k : Nat) : List.replicate k '7' ⊆ Literal.octalDigits := by
  intro c hc
  rw [List.eq_of_mem_replicate hc]
  decide

theorem valueIn_sevens (k : Nat) : Literal.valueIn 8 (List.replicate k '7') + 1 = 8 ^ k := by
  induction k with
  | zero => rfl
  | succ k ih =>
    have happend : Literal.valueIn 8 (List.replicate k '7' ++ ['7']) =
        8 * Literal.valueIn 8 (List.replicate k '7') + 7 := by
      rw [Literal.valueIn, List.foldl_append]
      rfl
    rw [List.replicate_succ', happend, Nat.pow_succ]
    omega

theorem isOverlong_sevens {j : Nat} (h : 100 ≤ j) :
    Literal.IsOverlong ('0' :: List.replicate (48 * j) '7') := by
  have hmax : Literal.maxDigits = 43 * 100 := rfl
  have hlarge : (10 ^ 43) ^ 100 < (8 ^ 48) ^ j :=
    Nat.lt_of_lt_of_le (Nat.pow_lt_pow_left (by decide) (by decide))
      (Nat.pow_le_pow_right (by decide) h)
  have hvalue := valueIn_sevens (48 * j)
  rw [Nat.pow_mul] at hvalue
  refine ⟨_, rfl, sevens_subset _, ?_⟩
  rw [hmax, Nat.pow_mul]
  omega

theorem isWhole_sevens (k : Nat) : ∀ leaf ∈ leaves (sevens k), IsWhole leaf := by
  intro leaf hleaf
  rw [List.mem_singleton.mp hleaf]
  have hdenotes := Literal.Denotes.octal (sevens_subset k)
  have hnone : ([] : List Char) ∈ Literal.integerSuffixes := List.mem_cons_self ..
  have hnumber := Literal.IsNumber.integer hdenotes hnone
  have hsigns := not_isSignedHexadecimal_integer hdenotes hnone
  rw [List.append_nil, ← String.toList_ofList (l := '0' :: List.replicate k '7')] at hnumber hsigns
  exact ⟨hnumber, hsigns⟩

theorem ofText?_render_mixed :
    (ofText? "~0xeL-(-1.5e+2L<<017u) * f('\\'', \"a\\\"\" \"b\",x==!y)" = some mixed ∧
      ∃ e' rendered, respell mixed = .ok e' ∧ render mixed = .ok rendered ∧
        ofText? rendered = some e' ∧ render e' = .ok rendered) ∧
    ofText? (String.ofList (written (sevens (48 * 100)))) = some (sevens (48 * 100)) ∧
      render (sevens (48 * 100)) = .error .tooLong := by
  have hread : ofText? "~0xeL-(-1.5e+2L<<017u) * f('\\'', \"a\\\"\" \"b\",x==!y)" = some mixed := by
    have htokens : Token.ofText "~0xeL-(-1.5e+2L<<017u) * f('\\'', \"a\\\"\" \"b\",x==!y)" =
        [⟨.operator, "~"⟩, ⟨.number, "0xeL"⟩, ⟨.operator, "-"⟩, opening, ⟨.operator, "-"⟩,
          ⟨.number, "1.5e+2L"⟩, ⟨.operator, "<<"⟩, ⟨.number, "017u"⟩, closing, ⟨.operator, "*"⟩,
          ⟨.identifier, "f"⟩, opening, ⟨.char, "'\\''"⟩, comma, ⟨.string, "\"a\\\"\""⟩,
          ⟨.string, "\"b\""⟩, comma, ⟨.identifier, "x"⟩, ⟨.operator, "=="⟩, ⟨.operator, "!"⟩,
          ⟨.identifier, "y"⟩, closing] := by
      decide +kernel
    rw [ofText?, htokens]
    rfl
  have hleaves : leaves mixed = [⟨.number, "0xeL"⟩, ⟨.number, "1.5e+2L"⟩, ⟨.number, "017u"⟩,
      ⟨.identifier, "f"⟩, ⟨.char, "'\\''"⟩, ⟨.string, "\"a\\\"b\""⟩, ⟨.identifier, "x"⟩,
      ⟨.identifier, "y"⟩] := by
    simp [mixed, leaves, argumentLeaves]
  have hlengths : ∀ leaf ∈ leaves mixed, leaf.text.toList.length ≤ 7 := by
    rw [hleaves]
    decide
  have hwhole := isWhole_sevens (48 * 100)
  have hsevens := ofText?_written hwhole
  refine ⟨⟨hread, (ofText?_render hread ?_ ?_ ?_).2 ?_⟩, hsevens,
    (ofText?_render hsevens ?_ ?_ ?_).1 _ [] ?_ (List.mem_cons_self ..)
      (isOverlong_sevens (Nat.le_refl _))⟩
  · intro spelling hmem
    simp only [hleaves, List.mem_cons, Token.mk.injEq, reduceCtorEq, false_and, true_and,
      List.not_mem_nil, or_false] at hmem
    rcases hmem with rfl | rfl | rfl
    · exact @Literal.IsNumber.integer ['0', 'x', 'e'] ['L'] _
        (.hexadecimal (by decide) (by decide) (by decide)) (by decide)
    · exact @Literal.IsNumber.floating ['1', '.', '5', 'e', '+', '2'] ['L']
        (@Literal.IsFloating.pointed ['1'] ['5'] ['e', '+', '2'] (by decide) (by decide) (by decide)
          (.inr (@Literal.IsExponent.mk 'e' ['+'] ['2'] (by decide) (by decide) (by decide) (by decide))))
        (by decide)
    · exact @Literal.IsNumber.integer ['0', '1', '7'] ['u'] _ (.octal (by decide)) (by decide)
  · intro spelling hmem
    obtain rfl : spelling = "\"a\\\"b\"" := by simpa [hleaves] using hmem
    decide
  · intro spelling hmem
    obtain rfl : spelling = "'\\''" := by simpa [hleaves] using hmem
    decide
  · -- an overlong number would be longer than the whole text
    intro body suffix hmem _ hlong
    have hlength := hlengths _ hmem
    have hlonger := hlong.length
    rw [String.toList_ofList, List.length_append] at hlength
    have hmax : 7 < Literal.maxDigits := by decide
    omega
  · exact fun spelling hmem => (hwhole _ hmem).1
  · exact fun spelling hmem => hwhole _ hmem
  · exact fun spelling hmem => hwhole _ hmem
  · rw [List.append_nil]
    exact List.mem_singleton.mpr rfl

end CInterop.Macro.Expr
