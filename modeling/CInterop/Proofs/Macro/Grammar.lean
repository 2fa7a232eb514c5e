import CInterop.Macro.Expr.Parser

/-!
# The grammar of constant expressions

The language of replacement texts, written down as derivations: ten levels of binary operators, each
associating to the left, over primaries. The parser climbs by the level of an operator instead of
descending through all levels; here it is shown to read exactly the derivable lists of tokens, each
to the tree of its derivation.

Soundness keeps, while climbing, the level `q` of what stands to the left: no operator that follows
binds more strongly than `q`. Completeness reads a derivation at level `k` in front of any tokens
that continue neither the primary nor that level.
-/

namespace CInterop.Macro.Grammar

open CInterop.Macro.Expr

/-! ## Derivations -/

/-- The binary operators of each level with their symbols, the loosest first. -/
def operators : Nat → List (String × BinaryOp)
  | 1 => [("||", .logicalOr)]
  | 2 => [("&&", .logicalAnd)]
  | 3 => [("|", .bitOr)]
  | 4 => [("^", .bitXor)]
  | 5 => [("&", .bitAnd)]
  | 6 => [("==", .equal), ("!=", .notEqual)]
  | 7 => [("<", .less), (">", .greater), ("<=", .lessEqual), (">=", .greaterEqual)]
  | 8 => [("<<", .shiftLeft), (">>", .shiftRight)]
  | 9 => [("+", .add), ("-", .sub)]
  | 10 => [("*", .mul), ("/", .div), ("%", .rem)]
  | _ => []

/-- The operators before a primary with their symbols. -/
def signs : List (String × UnaryOp) :=
  [("-", .minus), ("+", .plus), ("~", .complement), ("!", .not)]

/-- The one literal that string literals in a row stand for. -/
def joined (texts : List String) : String :=
  String.ofList ('"' :: texts.flatMap (fun text => (text.toList.drop 1).dropLast) ++ ['"'])

abbrev opening : Token := ⟨.paren, "("⟩
abbrev closing : Token := ⟨.paren, ")"⟩
abbrev comma : Token := ⟨.comma, ","⟩

mutual

/-- The tokens are a primary with the given tree. -/
inductive Primary : List Token → Expr → Prop where
  | number (text : String) : Primary [⟨.number, text⟩] (.number text)
  | char (text : String) : Primary [⟨.char, text⟩] (.char text)
  | strings (text : String) (texts : List String) :
      Primary ((text :: texts).map (⟨.string, ·⟩)) (.string (joined (text :: texts)))
  | identifier (name : String) : Primary [⟨.identifier, name⟩] (.identifier name)
  | emptyCall (name : String) :
      Primary [⟨.identifier, name⟩, opening, closing] (.call name [])
  | call (name : String) {tokens : List Token} {arguments : List Expr} :
      Arguments tokens arguments →
      Primary (⟨.identifier, name⟩ :: opening :: (tokens ++ [closing])) (.call name arguments)
  | parens {tokens : List Token} {e : Expr} :
      Level 1 tokens e → Primary (opening :: (tokens ++ [closing])) e
  | unary {symbol : String} {op : UnaryOp} {tokens : List Token} {e : Expr} :
      (symbol, op) ∈ signs → Primary tokens e →
      Primary (⟨.operator, symbol⟩ :: tokens) (.unary op e)

/-- The tokens are an expression of the given level with the given tree. -/
inductive Level : Nat → List Token → Expr → Prop where
  | primary {tokens : List Token} {e : Expr} : Primary tokens e → Level 11 tokens e
  | tighter {n : Nat} {tokens : List Token} {e : Expr} : Level (n + 1) tokens e → Level n tokens e
  | binary {n : Nat} {symbol : String} {op : BinaryOp} {lefts rights : List Token}
      {left right : Expr} :
      (symbol, op) ∈ operators n → Level n lefts left → Level (n + 1) rights right →
      Level n (lefts ++ ⟨.operator, symbol⟩ :: rights) (.binary left op right)

/-- The tokens are the arguments of a call, at least one, with commas between them. -/
inductive Arguments : List Token → List Expr → Prop where
  | last {tokens : List Token} {e : Expr} : Level 1 tokens e → Arguments tokens [e]
  | more {tokens others : List Token} {e : Expr} {arguments : List Expr} :
      Level 1 tokens e → Arguments others arguments →
      Arguments (tokens ++ comma :: others) (e :: arguments)

end

/-! ## The tables of operators -/

/-- The levels of the grammar are those the parser binds by. -/
theorem mem_operators {n : Nat} {symbol : String} {op : BinaryOp} :
    (symbol, op) ∈ operators n ↔ op.symbol = symbol ∧ op.level = n := by
  constructor
  · intro h
    have hsmall : ∀ k < 11, ∀ p ∈ operators k, p.2.symbol = p.1 ∧ p.2.level = k := by decide
    rcases Nat.lt_or_ge n 11 with hn | hn
    · exact hsmall n hn _ h
    · have hnone : operators n = [] := by
        unfold operators
        split <;> first | omega | rfl
      rw [hnone] at h
      exact absurd h List.not_mem_nil
  · rintro ⟨rfl, rfl⟩
    cases op <;> simp [operators, BinaryOp.symbol, BinaryOp.level]

theorem mem_signs {symbol : String} {op : UnaryOp} : (symbol, op) ∈ signs ↔ op.symbol = symbol := by
  constructor
  · intro h
    simp only [signs, List.mem_cons, List.not_mem_nil, Prod.mk.injEq, or_false] at h
    rcases h with ⟨rfl, rfl⟩ | ⟨rfl, rfl⟩ | ⟨rfl, rfl⟩ | ⟨rfl, rfl⟩ <;> rfl
  · rintro rfl
    cases op <;> simp [signs, UnaryOp.symbol]

theorem level_le (op : BinaryOp) : op.level ≤ 10 := by
  cases op <;> decide

/-! ## One step of the parser -/

theorem binaryOperator?_operator {least : Nat} (op : BinaryOp) (rest : List Token)
    (h : least ≤ op.level) :
    binaryOperator? least (⟨.operator, op.symbol⟩ :: rest) = some (op, rest) := by
  have hlevel : ¬ op.level < least := by omega
  simp [binaryOperator?, BinaryOp.ofSymbol?_symbol, hlevel]

theorem symbol_of_ofSymbol? {text : String} {op : BinaryOp} (h : BinaryOp.ofSymbol? text = some op) :
    op.symbol = text := by
  have hfound := List.find?_some h
  simpa using hfound

theorem symbol_of_sign {text : String} {op : UnaryOp} (h : UnaryOp.ofSymbol? text = some op) :
    op.symbol = text := by
  have hfound := List.find?_some h
  simpa using hfound

theorem eq_of_binaryOperator? {least : Nat} {op : BinaryOp} {tokens rest : List Token}
    (h : binaryOperator? least tokens = some (op, rest)) :
    tokens = ⟨.operator, op.symbol⟩ :: rest ∧ least ≤ op.level := by
  unfold binaryOperator? at h
  split at h
  · simp only [Option.bind_eq_some_iff, Option.ite_none_left_eq_some, Option.some.injEq,
      Prod.mk.injEq] at h
    obtain ⟨found, hfound, hlevel, rfl, rfl⟩ := h
    rw [symbol_of_ofSymbol? hfound]
    exact ⟨rfl, by omega⟩
  · cases h

/-- What no operator of one level continues, no operator that binds more strongly does. -/
theorem binaryOperator?_eq_none_of_le {least more : Nat} {tokens : List Token} (hle : least ≤ more)
    (h : binaryOperator? least tokens = none) : binaryOperator? more tokens = none := by
  cases hmore : binaryOperator? more tokens with
  | none => rfl
  | some found =>
    obtain ⟨htokens, hlevel⟩ := eq_of_binaryOperator? hmore
    rw [htokens, binaryOperator?_operator _ _ (by omega)] at h
    cases h

theorem eq_none_of_lt {least : Nat} (op : BinaryOp) (rest : List Token) (h : op.level < least) :
    binaryOperator? least (⟨.operator, op.symbol⟩ :: rest) = none := by
  simp [binaryOperator?, BinaryOp.ofSymbol?_symbol, h]

theorem binaryOperator?_eq_none {least : Nat} (tokens : List Token) (h : 11 ≤ least) :
    binaryOperator? least tokens = none := by
  cases hfound : binaryOperator? least tokens with
  | none => rfl
  | some found =>
    have hlevel := (eq_of_binaryOperator? hfound).2
    have hbound := level_le found.1
    omega

/-- No primary that ends before these tokens would go on with them: they begin neither with a
string, which would join one before it, nor with the parenthesis of a call. -/
def Stops : List Token → Prop
  | [] => True
  | token :: _ => token.kind ≠ .string ∧ token ≠ opening

theorem adjacentStrings_map (texts : List String) {rest : List Token} (h : Stops rest) :
    adjacentStrings (texts.map (⟨.string, ·⟩) ++ rest) = (texts.flatMap unquoted, rest) := by
  induction texts with
  | nil =>
    rw [List.map_nil, List.nil_append, List.flatMap_nil]
    unfold adjacentStrings
    split
    · exact absurd rfl h.1
    · rfl
  | cons text texts ih =>
    rw [List.map_cons, List.cons_append, adjacentStrings, ih, List.flatMap_cons]

theorem eq_of_adjacentStrings {tokens rest : List Token} {inner : List Char}
    (h : adjacentStrings tokens = (inner, rest)) :
    ∃ texts : List String,
      tokens = texts.map (⟨.string, ·⟩) ++ rest ∧ inner = texts.flatMap unquoted := by
  fun_induction adjacentStrings tokens generalizing inner with
  | case1 text others more after hmore ih =>
    cases h
    obtain ⟨texts, htokens, hmoreEq⟩ := ih hmore
    exact ⟨text :: texts, by rw [htokens]; rfl, by rw [hmoreEq]; rfl⟩
  | case2 tokens _ =>
    cases h
    exact ⟨[], rfl, rfl⟩

/-! ## Soundness -/

theorem Level.mono {n m : Nat} {tokens : List Token} {e : Expr} (hle : n ≤ m)
    (h : Level m tokens e) : Level n tokens e := by
  induction m with
  | zero =>
    obtain rfl : n = 0 := by omega
    exact h
  | succ m ih =>
    rcases Nat.lt_or_ge m n with hlt | hge
    · obtain rfl : n = m + 1 := by omega
      exact h
    · exact ih hge h.tighter

/-- Without operators of its own, level 0 is level 1. -/
theorem Level.of_zero {tokens : List Token} {e : Expr} (h : Level 0 tokens e) :
    Level 1 tokens e := by
  cases h with
  | tighter h => exact h
  | binary hop _ _ => exact absurd hop List.not_mem_nil

mutual

/-- What is read as a primary is one. -/
theorem primary_sound (n : Nat) {tokens rest : List Token} {e : Expr}
    (h : primary n tokens = some (e, rest)) :
    ∃ taken, tokens = taken ++ rest ∧ Primary taken e := by
  match n with
  | 0 => cases h
  | n + 1 =>
    unfold primary at h
    split at h
    · cases h
    · cases h
      exact ⟨_, rfl, .number _⟩
    · cases h
      exact ⟨_, rfl, .char _⟩
    · rename_i text others
      cases h
      obtain ⟨texts, hothers, hinner⟩ := eq_of_adjacentStrings
        (rfl : adjacentStrings others = _)
      refine ⟨(text :: texts).map (⟨.string, ·⟩), congrArg _ hothers, ?_⟩
      show Primary _ (.string (String.ofList
        ('"' :: (unquoted text ++ (adjacentStrings others).1 ++ ['"']))))
      rw [hinner]
      exact .strings text texts
    · cases h
      exact ⟨_, rfl, .emptyCall _⟩
    · rename_i name others _
      simp only [Option.bind_eq_bind, Option.bind_eq_some_iff] at h
      obtain ⟨⟨arguments, after⟩, harguments, heq⟩ := h
      cases heq
      obtain ⟨taken, rfl, htaken⟩ := arguments_sound n harguments
      exact ⟨_, by simp, .call name htaken⟩
    · cases h
      exact ⟨_, rfl, .identifier _⟩
    · rename_i others
      simp only [Option.bind_eq_bind, Option.bind_eq_some_iff] at h
      obtain ⟨⟨inner, after⟩, hinner, heq⟩ := h
      -- the levels begin at 1, where the parser starts at 0
      obtain ⟨taken, rfl, htaken, -⟩ := expression_sound n (Nat.zero_le 11) hinner
      dsimp only at heq
      split at heq
      · cases heq
        exact ⟨_, by simp, .parens htaken.of_zero⟩
      · cases heq
    · rename_i symbol others
      simp only [Option.bind_eq_bind, Option.bind_eq_some_iff] at h
      obtain ⟨op, hop, ⟨operand, after⟩, hoperand, heq⟩ := h
      cases heq
      obtain ⟨taken, rfl, htaken⟩ := primary_sound n hoperand
      exact ⟨_, rfl, .unary (mem_signs.mpr (symbol_of_sign hop)) htaken⟩
    · cases h

/-- What is read as an expression with operators of at least the given level is one of that level,
and no such operator follows. -/
theorem expression_sound (n : Nat) {least : Nat} {tokens rest : List Token} {e : Expr}
    (hle : least ≤ 11) (h : expression n least tokens = some (e, rest)) :
    ∃ taken, tokens = taken ++ rest ∧ Level least taken e ∧ binaryOperator? least rest = none := by
  match n with
  | 0 => cases h
  | n + 1 =>
    simp only [expression, Option.bind_eq_bind, Option.bind_eq_some_iff] at h
    obtain ⟨⟨left, middle⟩, hleft, hclimb⟩ := h
    obtain ⟨before, rfl, hbefore⟩ := primary_sound n hleft
    -- a primary is of the tightest level, which no operator continues
    obtain ⟨taken, rfl, htaken, hnone⟩ := climb_sound n hle (.primary hbefore)
      (binaryOperator?_eq_none middle (by omega)) hclimb
    exact ⟨before ++ taken, by rw [List.append_assoc], htaken, hnone⟩

/-- Climbing extends what stands to the left. -/
theorem climb_sound (n : Nat) {least level : Nat} {before tokens rest : List Token} {left e : Expr}
    (hle : least ≤ level) (hleft : Level level before left)
    (hnone : binaryOperator? (level + 1) tokens = none)
    (h : climb n least left tokens = some (e, rest)) :
    ∃ taken, tokens = taken ++ rest ∧ Level least (before ++ taken) e ∧
      binaryOperator? least rest = none := by
  match n with
  | 0 => cases h
  | n + 1 =>
    unfold climb at h
    split at h
    · rename_i hstop
      cases h
      exact ⟨[], rfl, by rw [List.append_nil]; exact hleft.mono hle, hstop⟩
    · rename_i op others hop
      simp only [Option.bind_eq_bind, Option.bind_eq_some_iff] at h
      obtain ⟨⟨right, middle⟩, hright, hclimb⟩ := h
      obtain ⟨rfl, hleast⟩ := eq_of_binaryOperator? hop
      -- the operator is none that binds more strongly than what stands to the left
      have hop' : op.level ≤ level := by
        rcases Nat.lt_or_ge level op.level with hgt | hle
        · rw [binaryOperator?_operator op others hgt] at hnone
          cases hnone
        · exact hle
      have hbound := level_le op
      obtain ⟨operand, rfl, hoperand, hafter⟩ := expression_sound n (by omega) hright
      have hwhole : Level op.level (before ++ ⟨.operator, op.symbol⟩ :: operand)
          (.binary left op right) :=
        .binary (mem_operators.mpr ⟨rfl, rfl⟩) (hleft.mono hop') hoperand
      obtain ⟨taken, rfl, htaken, hend⟩ := climb_sound n hleast hwhole hafter hclimb
      exact ⟨⟨.operator, op.symbol⟩ :: (operand ++ taken), by simp, by simpa using htaken, hend⟩

/-- What is read as arguments are arguments with a closing parenthesis. -/
theorem arguments_sound (n : Nat) {tokens rest : List Token} {arguments : List Expr}
    (h : Expr.arguments n tokens = some (arguments, rest)) :
    ∃ taken, tokens = taken ++ closing :: rest ∧ Arguments taken arguments := by
  match n with
  | 0 => cases h
  | n + 1 =>
    simp only [Expr.arguments, Option.bind_eq_bind, Option.bind_eq_some_iff] at h
    obtain ⟨⟨argument, middle⟩, hargument, heq⟩ := h
    obtain ⟨taken, rfl, htaken, -⟩ := expression_sound n (Nat.zero_le 11) hargument
    dsimp only at heq
    split at heq
    · cases heq
      exact ⟨taken, rfl, .last htaken.of_zero⟩
    · simp only [Option.bind_eq_some_iff] at heq
      obtain ⟨⟨others, after⟩, hothers, heq⟩ := heq
      cases heq
      obtain ⟨more, rfl, hmore⟩ := arguments_sound n hothers
      exact ⟨taken ++ comma :: more, by simp, .more htaken.of_zero hmore⟩
    · cases heq

end

/-! ## Completeness -/

theorem stops_operator (symbol : String) (rest : List Token) :
    Stops (⟨.operator, symbol⟩ :: rest) :=
  ⟨TokenKind.noConfusion, fun h => by cases h⟩

theorem stops_closing (rest : List Token) : Stops (closing :: rest) := by
  show closing.kind ≠ .string ∧ closing ≠ opening
  decide

theorem stops_comma (rest : List Token) : Stops (comma :: rest) := by
  show comma.kind ≠ .string ∧ comma ≠ opening
  decide

theorem binaryOperator?_closing {least : Nat} (rest : List Token) :
    binaryOperator? least (closing :: rest) = none := rfl

theorem binaryOperator?_comma {least : Nat} (rest : List Token) :
    binaryOperator? least (comma :: rest) = none := rfl

theorem climb_of_none {n least : Nat} {left : Expr} {rest : List Token} (hn : 1 ≤ n)
    (h : binaryOperator? least rest = none) : climb n least left rest = some (left, rest) := by
  obtain ⟨m, rfl⟩ : ∃ m, n = m + 1 := ⟨n - 1, by omega⟩
  unfold climb
  rw [h]

theorem arguments_closing (n : Nat) (rest : List Token) : arguments n (closing :: rest) = none := by
  match n with
  | 0 => rfl
  | 1 => rfl
  | n + 2 =>
    have hprimary : primary n (closing :: rest) = none := by
      cases n <;> rfl
    simp [arguments, expression, hprimary]

/-- With enough fuel the parser reads the tokens as a primary with this tree, whatever follows. -/
def ReadsPrimary (tokens : List Token) (e : Expr) : Prop :=
  ∀ {n : Nat} {rest : List Token}, Stops rest → 3 * (tokens ++ rest).length + 1 ≤ n →
    primary n (tokens ++ rest) = some (e, rest)

/-- Once the parser has read the tokens, it climbs on from this tree with fuel for what follows, if
no operator of a tighter level does. -/
def ReadsLevel (level : Nat) (tokens : List Token) (e : Expr) : Prop :=
  ∀ {n least : Nat} {rest : List Token}, least ≤ level → Stops rest →
    binaryOperator? (level + 1) rest = none → 3 * (tokens ++ rest).length + 2 ≤ n →
    ∃ m, 3 * rest.length + 1 ≤ m ∧ expression n least (tokens ++ rest) = climb m least e rest

/-- With enough fuel the parser reads the tokens before a closing parenthesis as these arguments. -/
def ReadsArguments (tokens : List Token) (list : List Expr) : Prop :=
  ∀ {n : Nat} {rest : List Token}, 3 * (tokens ++ closing :: rest).length + 3 ≤ n →
    arguments n (tokens ++ closing :: rest) = some (list, rest)

/-- An expression that no binary operator follows is read as a whole. -/
theorem ReadsLevel.expression {tokens : List Token} {e : Expr} (h : ReadsLevel 1 tokens e)
    {n : Nat} {rest : List Token} (hrest : Stops rest) (hnone : binaryOperator? 0 rest = none)
    (hn : 3 * (tokens ++ rest).length + 2 ≤ n) :
    Expr.expression n 0 (tokens ++ rest) = some (e, rest) := by
  obtain ⟨m, hm, heq⟩ :=
    h (Nat.zero_le 1) hrest (binaryOperator?_eq_none_of_le (Nat.zero_le 2) hnone) hn
  rw [heq, climb_of_none (by omega) hnone]

theorem readsPrimary_strings (text : String) (texts : List String) :
    ReadsPrimary ((text :: texts).map (⟨.string, ·⟩)) (.string (joined (text :: texts))) := by
  intro n rest hrest hn
  obtain ⟨n, rfl⟩ : ∃ m, n = m + 1 := ⟨n - 1, by omega⟩
  have hstrings := adjacentStrings_map (text :: texts) hrest
  rw [List.map_cons, List.cons_append] at hstrings ⊢
  unfold primary
  simp only [hstrings]
  rfl

theorem readsPrimary_identifier (name : String) :
    ReadsPrimary [⟨.identifier, name⟩] (.identifier name) := by
  intro n rest hrest hn
  obtain ⟨n, rfl⟩ : ∃ m, n = m + 1 := ⟨n - 1, by omega⟩
  cases rest with
  | nil => rfl
  | cons token rest =>
    have hopening : token ≠ opening := hrest.2
    simp_all [primary]

theorem readsPrimary_call {name : String} {tokens : List Token} {list : List Expr}
    (h : ReadsArguments tokens list) :
    ReadsPrimary (⟨.identifier, name⟩ :: opening :: (tokens ++ [closing])) (.call name list) := by
  intro n rest _ hn
  obtain ⟨n, rfl⟩ : ∃ m, n = m + 1 := ⟨n - 1, by omega⟩
  have htokens : tokens ++ [closing] ++ rest = tokens ++ closing :: rest := by simp
  rw [List.cons_append, List.cons_append, htokens] at hn ⊢
  rw [List.length_cons, List.length_cons] at hn
  have hread : arguments n (tokens ++ closing :: rest) = some (list, rest) := h (by omega)
  -- no argument begins with the closing parenthesis, so the call is not taken for an empty one
  have hne : ∀ others, tokens ++ closing :: rest ≠ closing :: others := by
    intro others heq
    rw [heq, arguments_closing] at hread
    cases hread
  rw [primary]
  · simp [hread]
  · exact hne

theorem readsPrimary_parens {tokens : List Token} {e : Expr} (h : ReadsLevel 1 tokens e) :
    ReadsPrimary (opening :: (tokens ++ [closing])) e := by
  intro n rest _ hn
  obtain ⟨n, rfl⟩ : ∃ m, n = m + 1 := ⟨n - 1, by omega⟩
  have htokens : tokens ++ [closing] ++ rest = tokens ++ closing :: rest := by simp
  rw [List.cons_append, htokens] at hn ⊢
  rw [List.length_cons] at hn
  have hinner := h.expression (n := n) (stops_closing rest) (binaryOperator?_closing rest) (by omega)
  simp [primary, hinner]

theorem readsPrimary_unary {symbol : String} {op : UnaryOp} {tokens : List Token} {e : Expr}
    (hop : (symbol, op) ∈ signs) (h : ReadsPrimary tokens e) :
    ReadsPrimary (⟨.operator, symbol⟩ :: tokens) (.unary op e) := by
  intro n rest hrest hn
  obtain ⟨n, rfl⟩ : ∃ m, n = m + 1 := ⟨n - 1, by omega⟩
  rw [List.cons_append, List.length_cons] at hn
  have hoperand := h hrest (n := n) (by omega)
  rw [← mem_signs.mp hop]
  simp [primary, UnaryOp.ofSymbol?_symbol, hoperand]

theorem readsLevel_primary {tokens : List Token} {e : Expr} (h : ReadsPrimary tokens e) :
    ReadsLevel 11 tokens e := by
  intro n least rest hle hrest hnone hn
  obtain ⟨n, rfl⟩ : ∃ m, n = m + 1 := ⟨n - 1, by omega⟩
  refine ⟨n, by rw [List.length_append] at hn; omega, ?_⟩
  rw [Expr.expression, h hrest (by omega)]
  rfl

theorem readsLevel_tighter {level : Nat} {tokens : List Token} {e : Expr}
    (h : ReadsLevel (level + 1) tokens e) : ReadsLevel level tokens e := by
  intro n least rest hle hrest hnone hn
  exact h (by omega) hrest (binaryOperator?_eq_none_of_le (by omega) hnone) hn

theorem readsLevel_binary {level : Nat} {symbol : String} {op : BinaryOp}
    {lefts rights : List Token} {left right : Expr} (hop : (symbol, op) ∈ operators level)
    (hleft : ReadsLevel level lefts left) (hright : ReadsLevel (level + 1) rights right) :
    ReadsLevel level (lefts ++ ⟨.operator, symbol⟩ :: rights) (.binary left op right) := by
  intro n least rest hle hrest hnone hn
  obtain ⟨rfl, rfl⟩ := mem_operators.mp hop
  rw [List.append_assoc, List.cons_append] at hn ⊢
  have hnext := binaryOperator?_operator op (rights ++ rest) hle
  -- the operator is of no tighter level, so the left side ends before it
  obtain ⟨m, hm, heq⟩ := hleft hle (stops_operator op.symbol _)
    (eq_none_of_lt op (rights ++ rest) (Nat.lt_succ_self _)) hn
  rw [List.length_cons] at hm
  obtain ⟨m, rfl⟩ : ∃ k, m = k + 1 := ⟨m - 1, by omega⟩
  -- the right side is read at the next level and ends where such an operator does not follow
  obtain ⟨k, hk, hoperand⟩ := hright (n := m) (Nat.le_refl _) hrest
    (binaryOperator?_eq_none_of_le (Nat.le_succ _) hnone) (by omega)
  rw [climb_of_none (by omega) hnone] at hoperand
  refine ⟨m, by rw [List.length_append] at hm; omega, ?_⟩
  rw [heq, climb, hnext]
  simp [hoperand]

theorem readsArguments_last {tokens : List Token} {e : Expr} (h : ReadsLevel 1 tokens e) :
    ReadsArguments tokens [e] := by
  intro n rest hn
  obtain ⟨n, rfl⟩ : ∃ m, n = m + 1 := ⟨n - 1, by omega⟩
  have hread := h.expression (n := n) (stops_closing rest) (binaryOperator?_closing rest) (by omega)
  simp [arguments, hread]

theorem readsArguments_more {tokens others : List Token} {e : Expr} {list : List Expr}
    (h : ReadsLevel 1 tokens e) (hothers : ReadsArguments others list) :
    ReadsArguments (tokens ++ comma :: others) (e :: list) := by
  intro n rest hn
  obtain ⟨n, rfl⟩ : ∃ m, n = m + 1 := ⟨n - 1, by omega⟩
  rw [List.append_assoc, List.cons_append] at hn ⊢
  have hread := h.expression (n := n) (stops_comma (others ++ closing :: rest))
    (binaryOperator?_comma _) (by omega)
  rw [List.length_append, List.length_cons] at hn
  have hmore : arguments n (others ++ closing :: rest) = some (list, rest) := hothers (by omega)
  simp [arguments, hread, hmore]

theorem readsPrimary_single {token : Token} {e : Expr}
    (h : ∀ n rest, primary (n + 1) (token :: rest) = some (e, rest)) : ReadsPrimary [token] e := by
  intro n rest _ hn
  obtain ⟨n, rfl⟩ : ∃ m, n = m + 1 := ⟨n - 1, by omega⟩
  exact h n rest

theorem readsPrimary_emptyCall (name : String) :
    ReadsPrimary [⟨.identifier, name⟩, opening, closing] (.call name []) := by
  intro n rest _ hn
  obtain ⟨n, rfl⟩ : ∃ m, n = m + 1 := ⟨n - 1, by omega⟩
  rfl

mutual

theorem primary_complete : {tokens : List Token} → {e : Expr} → Primary tokens e →
    ReadsPrimary tokens e
  | _, _, .number _ => readsPrimary_single fun _ _ => rfl
  | _, _, .char _ => readsPrimary_single fun _ _ => rfl
  | _, _, .strings text texts => readsPrimary_strings text texts
  | _, _, .identifier name => readsPrimary_identifier name
  | _, _, .emptyCall name => readsPrimary_emptyCall name
  | _, _, .call _ h => readsPrimary_call (arguments_complete h)
  | _, _, .parens h => readsPrimary_parens (level_complete h)
  | _, _, .unary hop h => readsPrimary_unary hop (primary_complete h)

theorem level_complete : {level : Nat} → {tokens : List Token} → {e : Expr} →
    Level level tokens e → ReadsLevel level tokens e
  | _, _, _, .primary h => readsLevel_primary (primary_complete h)
  | _, _, _, .tighter h => readsLevel_tighter (level_complete h)
  | _, _, _, .binary hop hleft hright =>
    readsLevel_binary hop (level_complete hleft) (level_complete hright)

theorem arguments_complete : {tokens : List Token} → {list : List Expr} → Arguments tokens list →
    ReadsArguments tokens list
  | _, _, .last h => readsArguments_last (level_complete h)
  | _, _, .more h hothers => readsArguments_more (level_complete h) (arguments_complete hothers)

end

/-! ## The language of the parser -/

/-- The start symbol of the grammar is its loosest level. -/
abbrev Derives (tokens : List Token) (e : Expr) : Prop := Level 1 tokens e

theorem ofTokens?_eq_some_iff {tokens : List Token} {e : Expr} :
    ofTokens? tokens = some e ↔ Derives tokens e := by
  unfold ofTokens?
  constructor
  · intro h
    split at h
    · rename_i whole heq
      cases h
      obtain ⟨taken, rfl, htaken, -⟩ := expression_sound _ (Nat.zero_le 11) heq
      rw [List.append_nil]
      exact htaken.of_zero
    · cases h
  · intro h
    have hread : expression (3 * tokens.length + 3) 0 (tokens ++ []) = some (e, []) :=
      ReadsLevel.expression (level_complete h) trivial rfl (by rw [List.append_nil]; omega)
    rw [List.append_nil] at hread
    rw [hread]

/-- A list of tokens is read exactly if it is derivable as a whole; what it is read to is the one
tree it derives, and any other list has no reading. -/
theorem ofTokens?_derives (tokens : List Token) :
    (∀ e, ofTokens? tokens = some e ↔ Derives tokens e) ∧
    (∀ e e', Derives tokens e → Derives tokens e' → e = e') ∧
    (ofTokens? tokens = none ↔ ¬ ∃ e, Derives tokens e) := by
  refine ⟨fun e => ofTokens?_eq_some_iff, fun e e' h h' => ?_, ?_⟩
  · have heq := ofTokens?_eq_some_iff.mpr h
    rw [ofTokens?_eq_some_iff.mpr h'] at heq
    exact (Option.some.inj heq).symm
  · constructor
    · rintro hnone ⟨e, h⟩
      rw [ofTokens?_eq_some_iff.mpr h] at hnone
      cases hnone
    · intro hnot
      cases hread : ofTokens? tokens with
      | none => rfl
      | some e => exact absurd ⟨e, ofTokens?_eq_some_iff.mp hread⟩ hnot

/-- Subtraction associates to the left and binds less strongly than multiplication. -/
example : ofTokens? [⟨.number, "7"⟩, ⟨.operator, "-"⟩, ⟨.number, "2"⟩, ⟨.operator, "*"⟩,
    ⟨.number, "3"⟩, ⟨.operator, "-"⟩, ⟨.number, "1"⟩] =
    some (.binary (.binary (.number "7") .sub (.binary (.number "2") .mul (.number "3"))) .sub
      (.number "1")) := by
  rfl

end CInterop.Macro.Grammar
