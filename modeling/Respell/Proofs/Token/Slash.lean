import Respell.Proofs.Token.Nesting

/-!
# Slashes behind an expression

A slash divides where an expression has just ended, and elsewhere it begins a regular expression.
`EndsOperand` and `IsPostfix` say, by the places in the list of tokens, where an expression ends.
`Lexeme.kind_eq_regex_iff` states when a token is a regular expression, `allowsRegex_concat` what
decides it behind each token, and `regex_behind_expression` puts both together: no regular
expression follows an operand, but behind a postfix operator the lexer reads every slash as one.
-/

namespace Respell

open Text

/-- The token at the place `j` closes a parenthesis that is no head of a statement. -/
def EndsGroup (v : Vocabulary) (tokens : List Token) (j : Nat) : Prop :=
  punctuatorAt ")" tokens j = true ∧
    ∀ i, partner tokens j = some i → Context.isControlGroup v (tokensBefore tokens i) = false

/-- An expression ends with the token at the place `j`: with a value, the last piece of a template,
one of two keywords, a bracket, a parenthesis, or the brace of an expression. -/
inductive EndsOperand (v : Vocabulary) (tokens : List Token) (j : Nat) : Prop where
  | value {t : Token} : tokens[j]? = some t →
      t.kind ∈ [.identifier, .numeric, .string, .boolean, .null, .regex] → EndsOperand v tokens j
  | template {t : Token} : tokens[j]? = some t → t.kind = .template →
      t.chars.getLast? = some Literal.templateQuote → EndsOperand v tokens j
  | keyword {t : Token} {name : String} : tokens[j]? = some t → t.canonical? v = some name →
      name = "this" ∨ name = "super" → EndsOperand v tokens j
  | bracket : punctuatorAt "]" tokens j = true → EndsOperand v tokens j
  | group : EndsGroup v tokens j → EndsOperand v tokens j
  | brace {i : Nat} : punctuatorAt closeBrace tokens j = true → bracePartner tokens j = some i →
      (Context.ofTokens v (tokens.take i)).openedBrace v = .expression → EndsOperand v tokens j

/-- The token at the place `j` is a postfix operator: it stands on one line behind an identifier, a
bracket, or a parenthesis that is no head of a statement. -/
inductive IsPostfix (v : Vocabulary) (text : List Char) (tokens : List Token) : Nat → Prop where
  | intro {i : Nat} {t u : Token} : tokens[i]? = some t → tokens[i + 1]? = some u →
      (u.isPunctuator "++" = true ∨ u.isPunctuator "--" = true) →
      (t.kind = .identifier ∨ t.isPunctuator "]" = true ∨ EndsGroup v tokens i) →
      (∀ c ∈ slice t.stop u.start text, Literal.isLineEnd c = false) →
      IsPostfix v text tokens (i + 1)

/-- An expression ends with the token at the place `j`. -/
def EndsExpression (v : Vocabulary) (text : List Char) (tokens : List Token) (j : Nat) : Prop :=
  EndsOperand v tokens j ∨ IsPostfix v text tokens j

/-- A regular expression stands at the place `j`. -/
def regexAt (tokens : List Token) (j : Nat) : Bool := tokens[j]?.any (·.kind == .regex)

/-- A token that begins with a slash stands at the place `j`. -/
def slashAt (tokens : List Token) (j : Nat) : Bool := tokens[j]?.any (·.chars.head? == some '/')

namespace Lexeme

/-- A lexeme is a regular expression exactly when it begins with a slash where one is allowed. -/
theorem kind_eq_regex_iff {v : Vocabulary} {ctx : Context} {c : Char} {rest : List Char}
    {l : Lexeme} (h : read v ctx c rest = .ok l) :
    l.kind = .regex ↔ l.text.head? = some '/' ∧ ctx.allowsRegex v = true := by
  rw [head?_of_read h, Option.some.injEq]
  constructor
  · intro hkind
    have hform : form v ctx c rest.head? = .regex :=
      form_of_read h fun g hg => by rw [hkind] at hg; revert hg; cases g <;> decide
    exact begins_of_form hform
  · intro ⟨hslash, hallows⟩
    subst hslash
    rw [read_slash, if_pos hallows, readForm, ofMatcher_eq_ok_iff] at h
    exact h.1

end Lexeme

variable {v : Vocabulary} {text : String} {tokens front back : List Token} {t : Token} {i : Nat}

/-- A token of a text is a regular expression exactly when it begins with a slash where the tokens
before it allow one. -/
theorem kind_eq_regex_iff (h : tokenize v text = .ok (front ++ t :: back)) :
    t.kind = .regex ↔
      t.chars.head? = some '/' ∧ (Context.ofTokens v front).allowsRegex v = true := by
  obtain ⟨c, rest, l, start, hread, rfl⟩ := exists_read_of_tokenize h
  rw [Lexeme.token_kind, Lexeme.token_chars]
  exact Lexeme.kind_eq_regex_iff hread

/-- The context behind one more token is asked about that token. -/
theorem before_concat (v : Vocabulary) (front : List Token) (t : Token) :
    (Context.ofTokens v (front ++ [t])).before = t :: front.reverse := by
  rw [Context.ofTokens_eq_recompute, Context.recompute, List.reverse_append]
  rfl

/-- Behind a closing token a slash means what that token says. -/
theorem allowsRegex_closing (v : Vocabulary) (front : List Token)
    (ht : Context.isClosing t = true) : (Context.ofTokens v (front ++ [t])).allowsRegex v =
      Context.regexBehind v (front ++ [t]) front.length := by
  have htext : t.kind = .punctuator ∧ (t.text = ")" ∨ t.text = closeBrace) := by
    rw [Context.isClosing, Token.isPunctuator, Token.isPunctuator, ← Bool.and_or_distrib_left,
      Bool.and_eq_true, Bool.or_eq_true, beq_iff_eq, beq_iff_eq, beq_iff_eq] at ht
    exact ht
  rw [Context.allowsRegex, before_concat]
  dsimp only
  rw [htext.1]
  dsimp only
  rw [if_pos htext.2, Context.ofTokens_eq_recompute, Context.regexAfterClose_recompute ht]

/-- Behind any other punctuator a slash divides only where a bracket has been closed. -/
theorem allowsRegex_punctuator (v : Vocabulary) (front : List Token) {a : String}
    (ht : t.isPunctuator a = true) (ha : a ≠ ")" ∧ a ≠ closeBrace) :
    (Context.ofTokens v (front ++ [t])).allowsRegex v = (a != "]") := by
  rw [Token.isPunctuator, Bool.and_eq_true, beq_iff_eq, beq_iff_eq] at ht
  rw [Context.allowsRegex, before_concat]
  dsimp only
  rw [ht.1, ht.2]
  dsimp only
  rw [if_neg (not_or.mpr ha)]

/-- Behind a keyword a slash divides only where the keyword is a value. -/
theorem allowsRegex_keyword (v : Vocabulary) (front : List Token) (ht : t.kind = .keyword) :
    (Context.ofTokens v (front ++ [t])).allowsRegex v =
      !(t.canonical? v).any ["this", "super"].contains := by
  rw [Context.allowsRegex, before_concat]
  dsimp only
  rw [ht]
  rfl

/-- Behind any other token a slash divides. -/
theorem allowsRegex_value (v : Vocabulary) (front : List Token) (hpunctuator : t.kind ≠ .punctuator)
    (hkeyword : t.kind ≠ .keyword) :
    (Context.ofTokens v (front ++ [t])).allowsRegex v = false := by
  rw [Context.allowsRegex, before_concat]
  dsimp only
  cases hkind : t.kind with
  | punctuator => exact absurd hkind hpunctuator
  | keyword => exact absurd hkind hkeyword
  | identifier | numeric | string | template | regex | boolean | null => rfl

/-- Behind a parenthesis that is no head of a statement a slash divides. -/
theorem allowsRegex_group (h : EndsGroup v (front ++ t :: back) front.length) :
    (Context.ofTokens v (front ++ [t])).allowsRegex v = false := by
  obtain ⟨hclosing, hvalue⟩ := h
  rw [List.append_cons, punctuatorAt_append (by simp), punctuatorAt_length] at hclosing
  rw [List.append_cons, partner_append (by simp)] at hvalue
  rw [allowsRegex_closing v front (by rw [Context.isClosing, hclosing, Bool.true_or]),
    Context.regexBehind, punctuatorAt_length, if_pos hclosing]
  cases hpartner : partner (front ++ [t]) front.length with
  | none => rfl
  | some i =>
      have hi := (punctuatorAt_of_partner hpartner).1
      have hcontrol := hvalue i hpartner
      rw [tokensBefore_append (by simp; omega)] at hcontrol
      exact hcontrol

/-- Behind a closing brace a slash means what the brace that it closes was opened for. -/
theorem allowsRegex_closeBrace (v : Vocabulary) (hclosing : t.isPunctuator closeBrace = true)
    (hpartner : bracePartner (front ++ [t]) front.length = some i)
    (hpiece : front[i]?.any Token.opensSubstitution = false) :
    (Context.ofTokens v (front ++ [t])).allowsRegex v =
      (Context.braceBehind v (tokensBefore front i) != .expression) := by
  have hcloses : t.closesBrace = true := by rw [Token.closesBrace, hclosing, Bool.true_or]
  rw [bracePartner_length, if_pos hcloses] at hpartner
  -- The brace that is closed is the one that was opened last.
  have hlast : (Context.openBraces v front.reverse).head? =
      some (Context.braceBehind v (tokensBefore front i)) := by
    rw [Context.openBraces_eq, List.head?_map, hpartner, Option.map_some, Context.openedAt, hpiece,
      if_neg Bool.false_ne_true]
  rw [allowsRegex_closing v front (by rw [Context.isClosing, hclosing, Bool.or_true]),
    Context.regexBehind_brace hclosing, hlast]
  rfl

/-- Behind the brace that closes an expression a slash divides. -/
theorem allowsRegex_brace (h : tokenize v text = .ok (front ++ t :: back))
    (hclosing : t.isPunctuator closeBrace = true)
    (hpartner : bracePartner (front ++ t :: back) front.length = some i)
    (hopened : (Context.ofTokens v ((front ++ t :: back).take i)).openedBrace v = .expression) :
    (Context.ofTokens v (front ++ [t])).allowsRegex v = false := by
  have halike := opensSubstitution_of_bracePartner h hpartner
  have hi := (Pairing.opens_of_partner hpartner).1
  have hpiece : t.closesSubstitution = false := by
    rw [Token.isPunctuator, Bool.and_eq_true, beq_iff_eq] at hclosing
    rw [Token.closesSubstitution, hclosing.1]
    rfl
  rw [List.getElem?_append_left hi, List.getElem?_append_right (Nat.le_refl _), Nat.sub_self,
    List.getElem?_cons_zero, Option.any_some, hpiece] at halike
  rw [bracePartner_length, ← bracePartner_length front t []] at hpartner
  rw [List.take_append_of_le_length (Nat.le_of_lt hi), Context.ofTokens_eq_recompute,
    Context.openedBrace_recompute] at hopened
  rw [allowsRegex_closeBrace v hclosing hpartner halike, tokensBefore, hopened]
  rfl

/-- Behind an operand no slash begins a regular expression. -/
theorem allowsRegex_of_endsOperand (h : tokenize v text = .ok (front ++ t :: back))
    (ht : EndsOperand v (front ++ t :: back) front.length) :
    (Context.ofTokens v (front ++ [t])).allowsRegex v = false := by
  have hthere : (front ++ t :: back)[front.length]? = some t := by
    rw [List.getElem?_append_right (Nat.le_refl _), Nat.sub_self]
    rfl
  cases ht with
  | @value u hu hkind =>
      cases hthere.symm.trans hu
      refine allowsRegex_value v front (fun hk => ?_) (fun hk => ?_)
      · rw [hk] at hkind
        exact absurd hkind (by decide)
      · rw [hk] at hkind
        exact absurd hkind (by decide)
  | @template u hu hkind hlast =>
      cases hthere.symm.trans hu
      exact allowsRegex_value v front (by rw [hkind]; decide) (by rw [hkind]; decide)
  | @keyword u name hu hname hmem =>
      cases hthere.symm.trans hu
      have hkind : t.kind = .keyword := by
        by_contra hkind
        rw [Token.canonical?, if_neg hkind] at hname
        cases hname
      rw [allowsRegex_keyword v front hkind, hname]
      rcases hmem with rfl | rfl
      · rfl
      · rfl
  | bracket hclosing =>
      rw [punctuatorAt, hthere, Option.any_some] at hclosing
      exact allowsRegex_punctuator v front hclosing (by decide)
  | group hgroup => exact allowsRegex_group hgroup
  | brace hclosing hpartner hopened =>
      rw [punctuatorAt, hthere, Option.any_some] at hclosing
      exact allowsRegex_brace h hclosing hpartner hopened

/-- Behind one of the two operators that may be postfix a slash begins a regular expression. -/
theorem allowsRegex_increment (v : Vocabulary) (front : List Token)
    (ht : t.isPunctuator "++" = true ∨ t.isPunctuator "--" = true) :
    (Context.ofTokens v (front ++ [t])).allowsRegex v = true := by
  rcases ht with ht | ht
  · exact allowsRegex_punctuator v front ht (by decide)
  · exact allowsRegex_punctuator v front ht (by decide)

/-- The token behind another one is a regular expression exactly when it begins with a slash and the
tokens up to the other allow one. -/
theorem regexAt_eq (h : tokenize v text = .ok (front ++ t :: back)) :
    regexAt (front ++ t :: back) (front.length + 1) =
      (slashAt (front ++ t :: back) (front.length + 1) &&
        (Context.ofTokens v (front ++ [t])).allowsRegex v) := by
  rw [List.append_cons] at h ⊢
  rw [regexAt, slashAt, List.getElem?_append_right (by simp), List.length_append,
    List.length_singleton, Nat.sub_self]
  cases back with
  | nil => rfl
  | cons u back =>
      rw [List.getElem?_cons_zero, Option.any_some, Option.any_some, Bool.eq_iff_iff,
        Bool.and_eq_true, beq_iff_eq, beq_iff_eq]
      exact kind_eq_regex_iff h

/-- In the tokens of a text no regular expression stands behind an operand. Behind a postfix
operator every token that begins with a slash is one, so no regular expression stands behind an
expression exactly when no such token stands behind a postfix operator. -/
theorem regex_behind_expression (h : tokenize v text = .ok tokens) :
    (∀ j, EndsOperand v tokens j → regexAt tokens (j + 1) = false) ∧
    (∀ j, IsPostfix v text.toList tokens j → regexAt tokens (j + 1) = slashAt tokens (j + 1)) ∧
    ((∀ j, EndsExpression v text.toList tokens j → regexAt tokens (j + 1) = false) ↔
      ∀ j, IsPostfix v text.toList tokens j → slashAt tokens (j + 1) = false) := by
  have hoperand : ∀ j, EndsOperand v tokens j → regexAt tokens (j + 1) = false := by
    intro j hj
    by_cases hlt : j < tokens.length
    · obtain ⟨front, t, back, rfl, rfl⟩ := Pairing.split_of_lt hlt
      rw [regexAt_eq h, allowsRegex_of_endsOperand h hj, Bool.and_false]
    · rw [regexAt, List.getElem?_eq_none (by omega)]
      rfl
  have hincremented : ∀ j, IsPostfix v text.toList tokens j →
      regexAt tokens (j + 1) = slashAt tokens (j + 1) := by
    intro j hj
    cases hj with
    | @intro i t u _ hu hincrement =>
        obtain ⟨front, w, back, rfl, hlength, hw⟩ :=
          Pairing.split_of_any (p := fun (w : Token) => w.isPunctuator "++" || w.isPunctuator "--")
            (by rw [hu, Option.any_some, Bool.or_eq_true]; exact hincrement)
        rw [Bool.or_eq_true] at hw
        rw [← hlength, regexAt_eq h, allowsRegex_increment v front hw, Bool.and_true]
  refine ⟨hoperand, hincremented, ?_⟩
  constructor
  · intro hall j hj
    rw [← hincremented j hj]
    exact hall j (Or.inr hj)
  · intro hnone j hj
    rcases hj with hj | hj
    · exact hoperand j hj
    · rw [hincremented j hj]
      exact hnone j hj

/-- Behind the brace of an object a slash divides. -/
theorem regex_behind_expression_object :
    let v : Vocabulary := ⟨"plain", ⟨[], List.Pairwise.nil⟩, List.Pairwise.nil⟩
    let text := "f=\x7b\x7d/a/b"
    let tokens : List Token := [⟨.identifier, "f", 0⟩, ⟨.punctuator, "=", 1⟩,
      ⟨.punctuator, "\x7b", 2⟩, ⟨.punctuator, "\x7d", 3⟩, ⟨.punctuator, "/", 4⟩,
      ⟨.identifier, "a", 5⟩, ⟨.punctuator, "/", 6⟩, ⟨.identifier, "b", 7⟩]
    tokenize v text = .ok tokens ∧ EndsOperand v tokens 3 ∧ regexAt tokens 4 = false := by
  intro v text tokens
  have h : tokenize v text = .ok tokens := by decide +kernel
  have hpartner : bracePartner tokens 3 = some 2 := by decide +kernel
  have hoperand : EndsOperand v tokens 3 := .brace rfl hpartner (by decide +kernel)
  exact ⟨h, hoperand, (regex_behind_expression h).1 3 hoperand⟩

/-- Behind a postfix operator a slash is read as the beginning of a regular expression. -/
theorem regex_behind_postfix :
    ¬ ∀ (v : Vocabulary) (text : String) (tokens : List Token), tokenize v text = .ok tokens →
      ∀ j, EndsExpression v text.toList tokens j → regexAt tokens (j + 1) = false := by
  intro hall
  let v : Vocabulary := ⟨"plain", ⟨[], List.Pairwise.nil⟩, List.Pairwise.nil⟩
  let text := "a++ /b/ c"
  let tokens : List Token := [⟨.identifier, "a", 0⟩, ⟨.punctuator, "++", 1⟩, ⟨.regex, "/b/", 4⟩,
    ⟨.identifier, "c", 8⟩]
  have h : tokenize v text = .ok tokens := by decide +kernel
  have hadjacent : slice 1 1 text.toList = [] := by decide +kernel
  have hline : ∀ c ∈ slice 1 1 text.toList, Literal.isLineEnd c = false := by
    intro c hc
    rw [hadjacent] at hc
    cases hc
  have hincremented : IsPostfix v text.toList tokens 1 :=
    .intro rfl rfl (Or.inl rfl) (Or.inl rfl) hline
  have hregex : regexAt tokens 2 = false := hall v text tokens h 1 (Or.inr hincremented)
  revert hregex
  decide +kernel

end Respell
