import PingWaf.Lib.Decimal
import PingWaf.Waf.Print

/-!
# Printed expressions parse back

The tokenizer reads every spelled token back (`tokenize_spell`), and the descent reads every phrase
that the grammar groups as it is written: a comparison, a negation and a parenthesis with anything
behind them, a chain of one operator up to a token that does not continue it.
-/

namespace PingWaf.Waf

open Text Net List

/-! ## Tokens -/

def Token.Readable : Token → Prop
  | .ident s => isIdentifier s = true
  | .num n => -2 ^ 63 ≤ n ∧ n < 2 ^ 63
  | .eof => False
  | _ => True

instance Token.decidableReadable : DecidablePred Token.Readable
  | .ident s => inferInstanceAs (Decidable (isIdentifier s = true))
  | .num n => inferInstanceAs (Decidable (-2 ^ 63 ≤ n ∧ n < 2 ^ 63))
  | .eof => .isFalse id
  | .str _ | .lParen | .rParen | .lBracket | .rBracket | .lBrace | .rBrace => .isTrue trivial

theorem scanString_escapeChar (buf : List Char) (ch : Char) (rest : List Char) :
    scanString '"' buf (escapeChar ch ++ rest) = scanString '"' (ch :: buf) rest := by
  unfold escapeChar
  split_ifs with hn ht hr hb hq
  · subst hn; rfl
  · subst ht; rfl
  · subst hr; rfl
  · subst hb; rfl
  · subst hq; rfl
  · rw [singleton_append, scanString]
    · exact if_neg hq
    · intro esc tail h
      exact absurd h hb

theorem scanString_quoted (buf cs rest : List Char) :
    scanString '"' buf (cs.flatMap escapeChar ++ '"' :: rest) =
      .ok (String.ofList (buf.reverse ++ cs), rest) := by
  induction cs generalizing buf with
  | nil => simp [scanString]
  | cons _ _ ih =>
    rw [flatMap_cons, append_assoc, scanString_escapeChar, ih]
    simp

theorem takeWhile_blank {p : Char → Bool} {cs : List Char} (h : ∀ ch ∈ cs, p ch = true)
    (hblank : p ' ' = false) (rest : List Char) :
    (cs ++ ' ' :: rest).takeWhile p = cs ∧ (cs ++ ' ' :: rest).dropWhile p = ' ' :: rest := by
  constructor
  · rw [takeWhile_append_of_pos h, takeWhile_cons_of_neg (by simp [hblank]),
      append_nil]
  · rw [dropWhile_append_of_pos h, dropWhile_cons_of_neg (by simp [hblank])]

theorem nextToken_word {ch : Char} {cs rest : List Char}
    (hhead : (isAsciiAlphanumeric ch || ch == '_') = true) (htail : ∀ x ∈ cs, isWordChar x = true) :
    nextToken ch (cs ++ ' ' :: rest) =
      .ok (some (match parseI64 (String.ofList (ch :: cs)) with
        | some n => .num n
        | none => .ident (String.ofList (ch :: cs))), ' ' :: rest) := by
  have hne : ∀ x : Char, (isAsciiAlphanumeric x || x == '_') = false → ch ≠ x := by
    intro x hx h
    rw [h, hx] at hhead
    cases hhead
  obtain ⟨htake, hdrop⟩ := takeWhile_blank htail (by decide) rest
  unfold nextToken
  simp only [hne ' ' (by decide), hne '\t' (by decide), hne '\n' (by decide), hne '\r' (by decide),
    hne '(' (by decide), hne ')' (by decide), hne '[' (by decide), hne ']' (by decide),
    hne '\x7b' (by decide), hne '\x7d' (by decide), hne '"' (by decide), hne '\'' (by decide),
    hne '-' (by decide), beq_iff_eq, Bool.or_eq_true, or_self, if_false, Bool.and_eq_true,
    false_and, htake, hdrop]
  rw [if_pos (by simpa using hhead)]
  cases parseI64 (String.ofList (ch :: cs)) <;> rfl

theorem nextToken_ident {s : String} (h : isIdentifier s = true) :
    ∃ ch cs, s.toList = ch :: cs ∧
      ∀ rest, nextToken ch (cs ++ ' ' :: rest) = .ok (some (.ident s), ' ' :: rest) := by
  simp only [isIdentifier, Bool.and_eq_true, all_eq_true, Option.isNone_iff_eq_none] at h
  obtain ⟨⟨hhead, hall⟩, hnum⟩ := h
  cases hs : s.toList with
  | nil =>
    rw [hs] at hhead
    cases hhead
  | cons ch cs =>
    rw [hs] at hhead hall
    refine ⟨ch, cs, rfl, fun rest => ?_⟩
    rw [nextToken_word (by simpa using hhead) fun x hx => hall x (mem_cons_of_mem _ hx), ← hs,
      String.ofList_toList, hnum]

theorem isAsciiDigit_of_mem_toDigits {n : Nat} {ch : Char} (h : ch ∈ Nat.toDigits 10 n) :
    isAsciiDigit ch = true := by
  have hd : ch.isDigit = true := Nat.isDigit_of_mem_toDigits (by decide) (le_refl 10) h
  simpa [Char.isDigit, isAsciiDigit, Char.le_def] using hd

theorem isWordChar_of_isAsciiDigit {ch : Char} (h : isAsciiDigit ch = true) :
    isWordChar ch = true := by
  simp [isWordChar, isAsciiAlphanumeric, h]

theorem nextToken_num {n : Int} (hlo : -2 ^ 63 ≤ n) (hhi : n < 2 ^ 63) :
    ∃ ch cs, (toString n).toList = ch :: cs ∧
      ∀ rest, nextToken ch (cs ++ ' ' :: rest) = .ok (some (.num n), ' ' :: rest) := by
  have hread : parseI64 (toString n) = some n := parseI64_toString hlo hhi
  by_cases hn : 0 ≤ n
  · obtain ⟨ch, cs, hds, -, -⟩ := toDigits_eq_digit_cons n.toNat
    have hlist : (toString n).toList = ch :: cs := (toList_toString_nonneg hn).trans hds
    have hdigit : ∀ x ∈ ch :: cs, isAsciiDigit x = true :=
      fun x hx => isAsciiDigit_of_mem_toDigits (hds ▸ hx)
    refine ⟨ch, cs, hlist, fun rest => ?_⟩
    rw [nextToken_word, ← hlist, String.ofList_toList, hread]
    · simp [isAsciiAlphanumeric, hdigit ch mem_cons_self]
    · exact fun x hx => isWordChar_of_isAsciiDigit (hdigit x (mem_cons_of_mem _ hx))
  · have hlist := toList_toString_neg hn
    obtain ⟨ch, cs, hds, -, -⟩ := toDigits_eq_digit_cons (-n).toNat
    rw [hds] at hlist
    have hdigit : ∀ x ∈ ch :: cs, isAsciiDigit x = true :=
      fun x hx => isAsciiDigit_of_mem_toDigits (hds ▸ hx)
    refine ⟨'-', ch :: cs, hlist, fun rest => ?_⟩
    obtain ⟨htake, hdrop⟩ := takeWhile_blank hdigit (by decide) rest
    unfold nextToken
    simp only [htake, hdrop, ← hlist, String.ofList_toList, hread]
    rw [cons_append, head?_cons]
    simp [hdigit ch mem_cons_self]

theorem nextToken_spelling {tok : Token} (h : tok.Readable) :
    ∃ ch cs, tok.spelling = ch :: cs ∧
      ∀ rest, nextToken ch (cs ++ ' ' :: rest) = .ok (some tok, ' ' :: rest) := by
  cases tok with
  | ident _ => exact nextToken_ident h
  | num _ => exact nextToken_num h.1 h.2
  | str s =>
    refine ⟨'"', _, rfl, fun rest => ?_⟩
    have hscan := scanString_quoted [] s.toList (' ' :: rest)
    rw [reverse_nil, nil_append, String.ofList_toList] at hscan
    rw [append_assoc, singleton_append]
    simp only [nextToken, hscan]
    rfl
  | eof => exact h.elim
  | lParen | rParen | lBracket | rBracket | lBrace | rBrace => exact ⟨_, [], rfl, fun rest => rfl⟩

theorem tokenizeLoop_blank (n : Nat) (rest : List Char) :
    tokenizeLoop (n + 1) (' ' :: rest) = tokenizeLoop n rest := by
  show (do let tokens ← tokenizeLoop n rest; pure ([] ++ tokens)) = _
  cases tokenizeLoop n rest <;> rfl

theorem tokenizeLoop_spell {toks : List Token} (h : ∀ tok ∈ toks, tok.Readable) {n : Nat}
    (hn : (spell toks).length ≤ n) : tokenizeLoop n (spell toks) = .ok (toks ++ [.eof]) := by
  induction toks generalizing n with
  | nil => cases n <;> rfl
  | cons tok toks ih =>
    obtain ⟨ch, cs, hspell, hnext⟩ := nextToken_spelling (h tok mem_cons_self)
    have hcons : spell (tok :: toks) = ch :: (cs ++ ' ' :: spell toks) := by
      rw [spell, flatMap_cons, hspell]
      simp [spell]
    rw [hcons] at hn ⊢
    simp only [length_cons, length_append] at hn
    obtain ⟨m, rfl⟩ : ∃ m, n = m + 1 + 1 := ⟨n - 2, by omega⟩
    rw [tokenizeLoop, hnext]
    show (do let tokens ← tokenizeLoop (m + 1) (' ' :: spell toks); pure ([tok] ++ tokens)) = _
    rw [tokenizeLoop_blank, ih (fun t ht => h t (mem_cons_of_mem _ ht)) (by omega)]
    rfl

theorem tokenize_spell {toks : List Token} (h : ∀ tok ∈ toks, tok.Readable) :
    tokenize (String.ofList (spell toks)) = .ok (toks ++ [.eof]) := by
  unfold tokenize
  rw [String.toList_ofList]
  exact tokenizeLoop_spell h (le_refl _)

/-! ## Comparisons -/

section

variable (c : Crates) (compiles : String → Bool)

theorem parseSetItems_elements (elements : List Element) (rest : List Token) :
    parseSetItems (elements.map Element.token ++ .rBrace :: rest) =
      .ok (elements.map Element.item, rest) := by
  induction elements with
  | nil => rfl
  | cons element _ ih =>
    cases element <;> simp [Element.token, Element.item, parseSetItems, ih, Except.map]

theorem parseValue_literal (kind : FieldKind) (op : Operator) (literal : Literal)
    (rest : List Token) :
    parseValue c compiles kind op (literal.tokens ++ rest) =
      (literal.value c compiles kind op).map (·, rest) := by
  cases literal with
  | str _ | num _ => rfl
  | bool b => cases b <;> rfl
  | set _ =>
    rw [Literal.tokens, cons_append, append_assoc, singleton_append, parseValue,
      parseSetItems_elements]
    rfl

theorem parseOperator_tokens (op : Operator) (rest : List Token) :
    parseOperator (op.tokens ++ rest) = .ok (op, rest) := by
  cases op <;> rfl

theorem parseIndex_tokens (field : Field) (index : Option String) (op : Operator)
    (rest : List Token) :
    parseIndex field (indexTokens index ++ (op.tokens ++ rest)) =
      .ok (match index with
        | none => field
        | some s => { field with index := some s }, op.tokens ++ rest) := by
  cases index with
  | none => cases op <;> rfl
  | some _ => rfl

theorem parseComparison_tokens (cmp : Comparison) (rest : List Token) :
    parseComparison c compiles cmp.path.text
        (indexTokens cmp.index ++ cmp.operator.tokens ++ cmp.literal.tokens ++ rest) =
      (cmp.ast c compiles).map (·, rest) := by
  have hindex := parseIndex_tokens (.fromPath cmp.path.text) cmp.index cmp.operator
    (cmp.literal.tokens ++ rest)
  rw [append_assoc, append_assoc, parseComparison, hindex]
  show (parseOperator (cmp.operator.tokens ++ (cmp.literal.tokens ++ rest))).bind (fun op =>
    (parseValue c compiles cmp.field.kind op.1 op.2).bind fun value =>
      .ok (Expression.field cmp.field op.1 value.1, value.2)) = _
  rw [parseOperator_tokens]
  show (parseValue c compiles cmp.field.kind cmp.operator (cmp.literal.tokens ++ rest)).bind
    (fun value => .ok (Expression.field cmp.field cmp.operator value.1, value.2)) = _
  rw [parseValue_literal, Comparison.ast]
  cases cmp.literal.value c compiles cmp.field.kind cmp.operator <;> rfl

end

/-! ## Chains -/

section

variable {word : String} {join : Expression → Expression → Expression}
variable {operand : List Token → Except ParseError (Expression × List Token)}

def Stops (word : String) (toks : List Token) : Prop :=
  ∀ s, toks.head? = some (.ident s) → eqIgnoreAsciiCase s word = false

theorem parseChain_stops {toks : List Token} (h : Stops word toks) (n : Nat) (lhs : Expression) :
    parseChain word join operand n lhs toks = .ok (lhs, toks) := by
  cases n with
  | zero => rfl
  | succ _ =>
    cases toks with
    | nil => rfl
    | cons tok _ =>
      cases tok with
      | ident s =>
        rw [parseChain, if_neg]
        rw [h s rfl]
        exact Bool.false_ne_true
      | _ => rfl

theorem parseChain_next {s : String} (h : eqIgnoreAsciiCase s word = true) (n : Nat)
    (lhs : Expression) (toks : List Token) :
    parseChain word join operand (n + 1) lhs (.ident s :: toks) =
      (operand toks).bind fun p => parseChain word join operand n (join lhs p.1) p.2 := by
  rw [parseChain, if_pos h]
  rfl

/-- The tokens spell a chain with this result, however it goes on. The loop has at least a turn for
every token that is left. -/
def ReadsChain (word : String) (join : Expression → Expression → Expression)
    (operand : List Token → Except ParseError (Expression × List Token)) (toks : List Token)
    (result : Except ParseError Expression) (rest : List Token) : Prop :=
  ∃ n, rest.length ≤ n ∧
    parseBinary word join operand (toks ++ rest) =
      result.bind fun e => parseChain word join operand n e rest

theorem ReadsChain.single {toks rest : List Token} {result : Except ParseError Expression}
    (h : operand (toks ++ rest) = result.map (·, rest)) :
    ReadsChain word join operand toks result rest := by
  refine ⟨rest.length, le_refl _, ?_⟩
  rw [parseBinary, h]
  cases result <;> rfl

theorem ReadsChain.snoc {s : String} (hword : eqIgnoreAsciiCase s word = true)
    {toks more rest : List Token} {left right : Except ParseError Expression}
    (hleft : ReadsChain word join operand toks left (.ident s :: (more ++ rest)))
    (hright : operand (more ++ rest) = right.map (·, rest)) :
    ReadsChain word join operand (toks ++ .ident s :: more)
      (left.bind fun a => right.map fun b => join a b) rest := by
  obtain ⟨n, hn, hparse⟩ := hleft
  simp only [length_cons, length_append] at hn
  obtain ⟨m, rfl⟩ : ∃ m, n = m + 1 := ⟨n - 1, by omega⟩
  refine ⟨m, by omega, ?_⟩
  rw [append_assoc, cons_append, hparse]
  cases left with
  | error _ => rfl
  | ok a =>
    show parseChain word join operand (m + 1) a (.ident s :: (more ++ rest)) = _
    rw [parseChain_next hword, hright]
    cases right <;> rfl

theorem ReadsChain.parse {toks rest : List Token} {result : Except ParseError Expression}
    (h : ReadsChain word join operand toks result rest) (hstop : Stops word rest) :
    parseBinary word join operand (toks ++ rest) = result.map (·, rest) := by
  obtain ⟨n, -, hparse⟩ := h
  rw [hparse]
  cases result with
  | error _ => rfl
  | ok e => exact parseChain_stops hstop n e

end

/-! ## Phrases -/

section

variable (c : Crates) (compiles : String → Bool)

abbrev parseAnd (left : Nat) : List Token → Except ParseError (Expression × List Token) :=
  parseBinary "and" .and (parseUnary c compiles left)

/-- The phrase is read at its own level of the grammar and at the looser ones. -/
structure Reads (p : Phrase) : Prop where
  unary : p.level = 0 → ∀ left, p.depth ≤ left → ∀ rest,
    parseUnary c compiles left (p.tokens ++ rest) = (p.ast c compiles).map (·, rest)
  and : p.level ≤ 1 → ∀ left, p.depth ≤ left → ∀ rest,
    ReadsChain "and" .and (parseUnary c compiles left) p.tokens (p.ast c compiles) rest
  or : ∀ left, p.depth ≤ left → ∀ rest, Stops "and" rest →
    ReadsChain "or" .or (parseAnd c compiles left) p.tokens (p.ast c compiles) rest

variable {c compiles}

theorem Reads.of_and {p : Phrase}
    (hunary : p.level = 0 → ∀ left, p.depth ≤ left → ∀ rest,
      parseUnary c compiles left (p.tokens ++ rest) = (p.ast c compiles).map (·, rest))
    (hand : ∀ left, p.depth ≤ left → ∀ rest,
      ReadsChain "and" .and (parseUnary c compiles left) p.tokens (p.ast c compiles) rest) :
    Reads c compiles p where
  unary := hunary
  and _ := hand
  or left hdepth rest hstop := .single ((hand left hdepth rest).parse hstop)

theorem Reads.of_unary {p : Phrase}
    (h : ∀ left, p.depth ≤ left → ∀ rest,
      parseUnary c compiles left (p.tokens ++ rest) = (p.ast c compiles).map (·, rest)) :
    Reads c compiles p :=
  .of_and (fun _ => h) fun left hdepth rest => .single (h left hdepth rest)

theorem parseUnary_ident {s : String} (h : eqIgnoreAsciiCase s "not" = false) (left : Nat)
    (toks : List Token) :
    parseUnary c compiles left (.ident s :: toks) = parseComparison c compiles s toks := by
  cases left <;> exact if_neg (by rw [h]; exact Bool.false_ne_true)

theorem stops_paren (word : String) (rest : List Token) : Stops word (.rParen :: rest) :=
  fun _ h => nomatch h

theorem stops_or (rest : List Token) : Stops "and" (.ident "or" :: rest) := by
  intro s h
  cases h
  decide

theorem reads_phrase {p : Phrase} (hgroup : p.Grouped) (hname : p.Unreserved) :
    Reads c compiles p := by
  induction p with
  | comparison cmp =>
    refine .of_unary fun left _ rest => ?_
    rw [Phrase.tokens, Comparison.tokens, cons_append, parseUnary_ident hname]
    exact parseComparison_tokens c compiles cmp rest
  | paren p ih =>
    refine .of_unary fun left hdepth rest => ?_
    obtain ⟨left, rfl⟩ := Nat.exists_eq_succ_of_ne_zero (Nat.ne_zero_of_lt hdepth)
    have hinner := ((ih hgroup hname).or left (Nat.le_of_succ_le_succ hdepth) (.rParen :: rest)
      (stops_paren _ _)).parse (stops_paren _ _)
    rw [Phrase.tokens, cons_append, append_assoc, singleton_append]
    show (parseOr (parseUnary c compiles left) (p.tokens ++ .rParen :: rest)).bind expectRParen = _
    rw [show parseOr (parseUnary c compiles left) = parseBinary "or" .or (parseAnd c compiles left)
      from rfl, hinner, Phrase.ast]
    cases p.ast c compiles <;> rfl
  | not p ih =>
    refine .of_unary fun left hdepth rest => ?_
    obtain ⟨left, rfl⟩ := Nat.exists_eq_succ_of_ne_zero (Nat.ne_zero_of_lt hdepth)
    have hinner := (ih hgroup.1 hname).unary hgroup.2 left (Nat.le_of_succ_le_succ hdepth) rest
    show (parseUnary c compiles left (p.tokens ++ rest)).map (fun q => (Expression.not q.1, q.2)) = _
    rw [hinner, Phrase.ast]
    cases p.ast c compiles <;> rfl
  | and _ q ihp ihq =>
    obtain ⟨hgp, hgq, hlp, hlq⟩ := hgroup
    refine .of_and (fun h => nomatch h) fun left hdepth rest => ?_
    have hright := (ihq hgq hname.2).unary hlq left (le_of_max_le_right hdepth) rest
    have hleft := (ihp hgp hname.1).and hlp left (le_of_max_le_left hdepth)
      (.ident "and" :: (q.tokens ++ rest))
    exact hleft.snoc (by decide) hright
  | or _ q ihp ihq =>
    obtain ⟨hgp, hgq, hlq⟩ := hgroup
    refine ⟨fun h => (nomatch h), fun h => absurd h (Nat.not_succ_le_self 1),
      fun left hdepth rest hstop => ?_⟩
    have hright := ((ihq hgq hname.2).and hlq left (le_of_max_le_right hdepth) rest).parse hstop
    have hleft := (ihp hgp hname.1).or left (le_of_max_le_left hdepth)
      (.ident "or" :: (q.tokens ++ rest)) (stops_or _)
    exact hleft.snoc (by decide) hright

end

/-! ## Texts -/

theorem readable_literal {literal : Literal} : ∀ tok ∈ literal.tokens, tok.Readable := by
  have hnum (n : Int64) : Token.Readable (.num n.toInt) := ⟨n.le_toInt, n.toInt_lt⟩
  intro tok h
  cases literal with
  | str _ => cases mem_singleton.mp h; trivial
  | num n => cases mem_singleton.mp h; exact hnum n
  | bool b => cases b <;> cases mem_singleton.mp h <;> decide
  | set _ =>
    simp only [Literal.tokens, mem_cons, mem_append, mem_map, not_mem_nil,
      or_false] at h
    rcases h with rfl | ⟨element, -, rfl⟩ | rfl
    · trivial
    · cases element with
      | str _ => trivial
      | num n => exact hnum n
    · trivial

theorem readable_operator {op : Operator} : ∀ tok ∈ op.tokens, tok.Readable := by
  cases op <;> decide

theorem readable_index (index : Option String) : ∀ tok ∈ indexTokens index, tok.Readable := by
  cases index <;> simp [indexTokens, Token.Readable]

theorem readable_phrase (p : Phrase) : ∀ tok ∈ p.tokens, tok.Readable := by
  induction p with
  | comparison cmp =>
    simp only [Phrase.tokens, Comparison.tokens, forall_mem_cons, forall_mem_append]
    exact ⟨cmp.path.isIdentifier, ⟨readable_index _, readable_operator⟩, readable_literal⟩
  | paren _ ih =>
    simp only [Phrase.tokens, forall_mem_cons, forall_mem_append]
    exact ⟨trivial, ih, by simp [Token.Readable]⟩
  | not _ ih => exact forall_mem_cons.mpr ⟨by decide, ih⟩
  | and _ _ ihp ihq | or _ _ ihp ihq =>
    simp only [Phrase.tokens, forall_mem_cons, forall_mem_append]
    exact ⟨ihp, by decide, ihq⟩

section

variable {c : Crates} {compiles : String → Bool}

theorem parseExpression_text {p : Phrase} (hgroup : p.Grouped) (hname : p.Unreserved)
    (hfit : p.Fits) : parseExpression c compiles p.text = p.ast c compiles := by
  have htoks : tokenize p.text = .ok (p.tokens ++ [.eof]) := tokenize_spell (readable_phrase p)
  have heof (word : String) : Stops word [.eof] := fun _ h => nomatch h
  have hparse : parseOr (parseUnary c compiles maxExpressionDepth) (p.tokens ++ [.eof]) =
      (p.ast c compiles).map (·, [.eof]) :=
    ((reads_phrase hgroup hname).or maxExpressionDepth hfit.depth [.eof] (heof _)).parse (heof _)
  have hcount : ¬ (p.tokens ++ [Token.eof]).length > maxExpressionTokens := by
    rw [length_append, length_singleton]
    exact not_lt.mpr hfit.tokens
  simp only [parseExpression, if_neg (not_lt.mpr hfit.length), htoks]
  show (if (p.tokens ++ [Token.eof]).length > maxExpressionTokens then _ else _) = _
  rw [if_neg hcount]
  show (parseOr (parseUnary c compiles maxExpressionDepth) (p.tokens ++ [.eof])).bind _ = _
  rw [hparse]
  cases p.ast c compiles <;> rfl

/-! ## The cache -/

/-- What is cached is what the parser gives. -/
def ExpressionCache.Truthful (c : Crates) (compiles : String → Bool) (cache : ExpressionCache) :
    Prop :=
  ∀ input e, cache.lookup input = some e → parseExpression c compiles input = .ok e

theorem truthful_store {cache : ExpressionCache} (h : cache.Truthful c compiles) {input : String}
    {e : Expression} (he : parseExpression c compiles input = .ok e) :
    (cache.store input e).Truthful c compiles := by
  intro other e' hlook
  unfold ExpressionCache.store at hlook
  by_cases hother : other = input
  · subst hother
    rw [AList.lookup_insert] at hlook
    cases hlook
    exact he
  · rw [AList.lookup_insert_ne hother] at hlook
    split at hlook
    · cases hlook
    · exact h other e' hlook

theorem parseExpression_tooLong {input : String} (h : byteLen input > maxExpressionLen) :
    parseExpression c compiles input = .error (.tooLong (byteLen input)) := by
  simp only [parseExpression, if_pos h]
  rfl

theorem parseExpressionCached_spec {cache : ExpressionCache} (h : cache.Truthful c compiles)
    (input : String) :
    (parseExpressionCached c compiles cache input).1 = parseExpression c compiles input ∧
      (parseExpressionCached c compiles cache input).2.Truthful c compiles := by
  unfold parseExpressionCached
  split
  · next hlong => exact ⟨(parseExpression_tooLong hlong).symm, h⟩
  · split
    · next e hlook => exact ⟨(h input e hlook).symm, h⟩
    · split
      · next e hparse => exact ⟨hparse.symm, truthful_store h hparse⟩
      · next err hparse => exact ⟨hparse.symm, h⟩

theorem truthful_cacheAfter (inputs : List String) :
    (cacheAfter c compiles inputs).Truthful c compiles := by
  suffices hrun : ∀ cache : ExpressionCache, cache.Truthful c compiles →
      (inputs.foldl (fun cache input => (parseExpressionCached c compiles cache input).2)
        cache).Truthful c compiles from
    hrun ∅ fun _ _ h => nomatch h
  induction inputs with
  | nil => exact fun _ h => h
  | cons input _ ih => exact fun _ h => ih _ (parseExpressionCached_spec h input).2

/-! ## Clauses -/

/-- The phrase groups as it is written, and stands for the clause. -/
structure Phrase.Writes (c : Crates) (compiles : String → Bool) (p : Phrase) (t : Clause) :
    Prop where
  grouped : p.Grouped
  unreserved : p.Unreserved
  ast : p.ast c compiles = t.ast c compiles

namespace Phrase.Writes

variable {p q : Phrase} {s t : Clause}

theorem paren (h : p.Writes c compiles t) : (Phrase.paren p).Writes c compiles t :=
  ⟨h.grouped, h.unreserved, h.ast⟩

theorem not (h : p.Writes c compiles t) (hp : p.level = 0) :
    (Phrase.not p).Writes c compiles (.not t) :=
  ⟨⟨h.grouped, hp⟩, h.unreserved, by simp only [Phrase.ast, Clause.ast, h.ast]⟩

theorem and (h : p.Writes c compiles s) (h' : q.Writes c compiles t) (hp : p.level ≤ 1)
    (hq : q.level = 0) : (Phrase.and p q).Writes c compiles (.and s t) :=
  ⟨⟨h.grouped, h'.grouped, hp, hq⟩, ⟨h.unreserved, h'.unreserved⟩,
    by simp only [Phrase.ast, Clause.ast, h.ast, h'.ast]⟩

theorem or (h : p.Writes c compiles s) (h' : q.Writes c compiles t) (hq : q.level ≤ 1) :
    (Phrase.or p q).Writes c compiles (.or s t) :=
  ⟨⟨h.grouped, h'.grouped, hq⟩, ⟨h.unreserved, h'.unreserved⟩,
    by simp only [Phrase.ast, Clause.ast, h.ast, h'.ast]⟩

end Phrase.Writes

theorem level_parenthesised (t : Clause) : t.parenthesised.level = 0 := by
  cases t <;> rfl

theorem level_parenthesised_le (t : Clause) : t.parenthesised.level ≤ 1 :=
  (level_parenthesised t).trans_le (Nat.zero_le 1)

theorem writes_parenthesised {t : Clause} (h : t.Unreserved) :
    t.parenthesised.Writes c compiles t := by
  induction t with
  | comparison _ => exact ⟨trivial, h, rfl⟩
  | not t ih => exact ((ih h).not (level_parenthesised t)).paren
  | and a b iha ihb =>
    exact ((iha h.1).and (ihb h.2) (level_parenthesised_le a) (level_parenthesised b)).paren
  | or _ b iha ihb => exact ((iha h.1).or (ihb h.2) (level_parenthesised_le b)).paren

end

/-- After any calls before it, `parse_expression` gives the text of the phrase this tree. -/
def Phrase.ReadsAs (c : Crates) (compiles : String → Bool) (earlier : List String) (p : Phrase)
    (t : Clause) : Prop :=
  p.Fits → (parseExpressionCached c compiles (cacheAfter c compiles earlier) p.text).1 =
    t.ast c compiles

theorem Phrase.Writes.readsAs {c : Crates} {compiles : String → Bool} {p : Phrase} {t : Clause}
    (h : p.Writes c compiles t) (earlier : List String) : p.ReadsAs c compiles earlier t := by
  intro hfit
  rw [← h.ast]
  exact (parseExpressionCached_spec (truthful_cacheAfter earlier) p.text).1.trans
    (parseExpression_text h.grouped h.unreserved hfit)

/-- **Round trip**: the printed text of a tree parses back to the expression it stands for. Between
clauses in parentheses `and` binds tighter than `or`, both group to the left, and `not` takes one
clause. -/
theorem printed_expression_parses (c : Crates) (compiles : String → Bool) (earlier : List String)
    (x y z : Clause) (hx : x.Unreserved) (hy : y.Unreserved) (hz : z.Unreserved) :
    x.parenthesised.ReadsAs c compiles earlier x ∧
    (Phrase.or x.parenthesised (.and y.parenthesised z.parenthesised)).ReadsAs c compiles earlier
      (.or x (.and y z)) ∧
    (Phrase.or (.and x.parenthesised y.parenthesised) z.parenthesised).ReadsAs c compiles earlier
      (.or (.and x y) z) ∧
    (Phrase.and (.and x.parenthesised y.parenthesised) z.parenthesised).ReadsAs c compiles earlier
      (.and (.and x y) z) ∧
    (Phrase.or (.or x.parenthesised y.parenthesised) z.parenthesised).ReadsAs c compiles earlier
      (.or (.or x y) z) ∧
    (Phrase.and (.not x.parenthesised) y.parenthesised).ReadsAs c compiles earlier
      (.and (.not x) y) ∧
    (Phrase.or (.not x.parenthesised) y.parenthesised).ReadsAs c compiles earlier
      (.or (.not x) y) := by
  have wx : x.parenthesised.Writes c compiles x := writes_parenthesised hx
  have wy : y.parenthesised.Writes c compiles y := writes_parenthesised hy
  have wz : z.parenthesised.Writes c compiles z := writes_parenthesised hz
  have lx := level_parenthesised x
  have ly := level_parenthesised y
  have lz := level_parenthesised z
  have hxy := wx.and wy (level_parenthesised_le x) ly
  have hyz := wy.and wz (level_parenthesised_le y) lz
  refine ⟨wx.readsAs _, ?_, ?_, ?_, ?_, ?_, ?_⟩
  · exact (wx.or hyz (le_refl 1)).readsAs _
  · exact (hxy.or wz (level_parenthesised_le z)).readsAs _
  · exact (hxy.and wz (le_refl 1) lz).readsAs _
  · exact ((wx.or wy (level_parenthesised_le y)).or wz (level_parenthesised_le z)).readsAs _
  · exact ((wx.not lx).and wy (Nat.zero_le 1) ly).readsAs _
  · exact ((wx.not lx).or wy (level_parenthesised_le y)).readsAs _

/-- A host with a quotation mark and a line end, and a header outside a set. -/
def sampleClause : Clause :=
  .and
    (.comparison ⟨⟨"http.host", by decide +kernel⟩, none, .eq, .str "a\"\n"⟩)
    (.not (.comparison
      ⟨⟨"http.request.headers", by decide +kernel⟩, some "x", .notIn, .set [.str "b", .num (-3)]⟩))

theorem sampleClause_parses :
    sampleClause.Unreserved ∧ sampleClause.parenthesised.Fits ∧
      sampleClause.print = "( http.host eq \"a\\\"\\n\" and " ++
        "( not http.request.headers [ \"x\" ] not in \x7b \"b\" -3 \x7d ) ) " ∧
      (parseExpressionCached .inert (fun _ => true)
        (cacheAfter .inert (fun _ => true) ["ssl eq true"]) sampleClause.print).1 =
        .ok (.and (.field ⟨.host, none⟩ .eq (.str "a\"\n"))
          (.not (.field ⟨.requestHeader, some "x"⟩ .notIn (.set ["b", "-3"])))) := by
  have hname : sampleClause.Unreserved := ⟨rfl, rfl⟩
  have hfit : sampleClause.parenthesised.Fits :=
    ⟨by decide +kernel, by decide +kernel, by decide +kernel⟩
  refine ⟨hname, hfit, by decide +kernel, ?_⟩
  exact ((printed_expression_parses .inert (fun _ => true) ["ssl eq true"] sampleClause sampleClause
    sampleClause hname hname hname).1 hfit).trans rfl

/-- A comparison whose field path is the word of the prefix operator. -/
def reservedClause : Clause :=
  .comparison ⟨⟨"not", by decide +kernel⟩, none, .eq, .str "x"⟩

/-- At the start of a clause the word is the operator, so the path is looked for behind it. -/
theorem reservedClause_rejected :
    reservedClause.parenthesised.Fits ∧
      reservedClause.ast .inert (fun _ => true) =
        .ok (.field ⟨.unknown "not", none⟩ .eq (.str "x")) ∧
      (parseExpressionCached .inert (fun _ => true) ∅ reservedClause.print).1 =
        .error (.expectedOperator (.str "x")) :=
  ⟨⟨by decide +kernel, by decide +kernel, by decide +kernel⟩, by decide +kernel, by decide +kernel⟩

end PingWaf.Waf
