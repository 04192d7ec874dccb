import Mathlib.Data.List.Induction
import Respell.Proofs.Token.Form
import Respell.Proofs.Token.Pairing
import Respell.Proofs.Token.Run

/-!
# The context recomputed

The lexer keeps its context up to date token by token. `Context.recompute` works the same context
out of all tokens at once: the open parentheses are those that remain when all are paired, the
latest group is the one that the latest closing parenthesis ends, the open braces are found by going
through the tokens again, and what a slash means behind a closing token is decided at that token.
`ofTokens_eq_recompute` states that nothing that was kept is out of date. So `context_of_reaches`
answers from the tokens alone the two questions that a lexer puts to its context: whether a slash
begins a regular expression, and whether a closing brace goes on with a template.
-/

namespace Respell

open Text

/-- The tokens before the place `i`, the latest first. -/
def tokensBefore (tokens : List Token) (i : Nat) : List Token := (tokens.take i).reverse

namespace Context

/-- The tokens before the parenthesis that the latest closing one closes. -/
def latestGroup (tokens : List Token) : Option (List Token) :=
  ((latestPlace (·.isPunctuator ")") tokens).bind (partner tokens)).map (tokensBefore tokens)

/-- What a brace belongs to that is opened behind these tokens, the latest first. -/
def braceBehind (v : Vocabulary) (before : List Token) : Brace :=
  openedBrace v ⟨before, [], latestGroup before.reverse, [], false⟩

/-- The braces that are open behind these tokens, the latest first. -/
def openBraces (v : Vocabulary) : List Token → List Brace
  | [] => []
  | t :: before =>
    if t.isPunctuator openBrace then braceBehind v before :: openBraces v before
    else if t.isPunctuator closeBrace then (openBraces v before).tail
    else if t.kind = .template then
      let outer :=
        if t.text.toList.head? = some '}' then (openBraces v before).tail else openBraces v before
      if ['$', '{'].isSuffixOf t.text.toList then .substitution :: outer else outer
    else openBraces v before

/-- The token closes a parenthesis or a brace. -/
def isClosing (t : Token) : Bool := t.isPunctuator ")" || t.isPunctuator closeBrace

/-- A slash right behind the closing token at the place `j` begins a regular expression: the token
ends the head of a statement, or it closes a brace that is no expression. -/
def regexBehind (v : Vocabulary) (tokens : List Token) (j : Nat) : Bool :=
  if punctuatorAt ")" tokens j then
    (partner tokens j).any fun i => isControlGroup v (tokensBefore tokens i)
  else (openBraces v (tokensBefore tokens j)).head? != some .expression

/-- The context behind these tokens, worked out from the tokens alone. -/
def recompute (v : Vocabulary) (tokens : List Token) : Context where
  before := tokens.reverse
  parens := (unmatched tokens).map (tokensBefore tokens)
  group := latestGroup tokens
  braces := openBraces v tokens.reverse
  regexAfterClose := (latestPlace isClosing tokens).any (regexBehind v tokens)

end Context

variable {v : Vocabulary} {tokens : List Token} {t : Token} {i j : Nat}

/-- The tokens before a place are those before it in every longer list. -/
theorem tokensBefore_append {more : List Token} (h : i ≤ tokens.length) :
    tokensBefore (tokens ++ more) i = tokensBefore tokens i := by
  rw [tokensBefore, tokensBefore, List.take_append_of_le_length h]

/-- Before a token that is added there are all the others. -/
@[simp] theorem tokensBefore_length :
    tokensBefore (tokens ++ [t]) tokens.length = tokens.reverse := by
  rw [tokensBefore, List.take_left']
  rfl

/-- Before a place behind a token there are that token and those before it. -/
theorem tokensBefore_succ (h : i < tokens.length) :
    tokensBefore tokens (i + 1) = tokens[i] :: tokensBefore tokens i := by
  rw [tokensBefore, tokensBefore, ← List.take_concat_get h, List.concat_eq_append,
    List.reverse_append]
  rfl

/-- A token is one punctuator at most. -/
theorem Token.isPunctuator_eq {a b : String} (h : t.isPunctuator a = true) :
    t.isPunctuator b = (a == b) := by
  rw [isPunctuator, Bool.and_eq_true, beq_iff_eq, beq_iff_eq] at h
  rw [isPunctuator, h.1, h.2]
  rfl

/-- A token of another kind is no punctuator. -/
theorem Token.isPunctuator_eq_false (h : t.kind ≠ .punctuator) (a : String) :
    t.isPunctuator a = false := by
  rw [isPunctuator, beq_eq_false_iff_ne.mpr h, Bool.false_and]

namespace Context

/-- The tokens before the parentheses that remain are the same in a longer list. -/
theorem map_tokensBefore_unmatched (tokens : List Token) (t : Token) :
    (unmatched tokens).map (tokensBefore (tokens ++ [t])) =
      (unmatched tokens).map (tokensBefore tokens) := by
  refine List.map_congr_left fun i hi => ?_
  exact tokensBefore_append (Nat.le_of_lt (mem_unmatched_iff.mp hi).1)

/-- One more token opens a group, ends the nearest one, or leaves them. -/
theorem parens_concat (tokens : List Token) (t : Token) :
    (unmatched (tokens ++ [t])).map (tokensBefore (tokens ++ [t])) =
      if t.isPunctuator "(" then tokens.reverse :: (unmatched tokens).map (tokensBefore tokens)
      else if t.isPunctuator ")" then ((unmatched tokens).map (tokensBefore tokens)).tail
      else (unmatched tokens).map (tokensBefore tokens) := by
  rw [← map_tokensBefore_unmatched tokens t]
  cases hopening : t.isPunctuator "(" with
  | true =>
      rw [if_pos rfl, unmatched_opening hopening (Token.isPunctuator_eq hopening), List.map_cons,
        tokensBefore_length]
  | false =>
      rw [if_neg Bool.false_ne_true]
      cases hclosing : t.isPunctuator ")" with
      | true => rw [if_pos rfl, unmatched_closing hclosing hopening, List.map_tail]
      | false => rw [if_neg Bool.false_ne_true, unmatched_other hopening hclosing]

/-- The latest group is the nearest one when a parenthesis is closed, and stays the same until then. -/
theorem latestGroup_concat (tokens : List Token) (t : Token) : latestGroup (tokens ++ [t]) =
    if t.isPunctuator ")" then ((unmatched tokens).map (tokensBefore tokens)).head?
    else latestGroup tokens := by
  rw [latestGroup, latestPlace_concat]
  cases hclosing : t.isPunctuator ")" with
  | true =>
      rw [if_pos rfl, if_pos rfl, Option.bind_some, partner_length hclosing, ← List.head?_map,
        map_tokensBefore_unmatched]
  | false =>
      rw [if_neg Bool.false_ne_true, if_neg Bool.false_ne_true, latestGroup]
      cases hlatest : latestPlace (·.isPunctuator ")") tokens with
      | none => rfl
      | some j =>
          have hj := (any_of_latestPlace hlatest).1
          rw [Option.bind_some, Option.bind_some, partner_append hj]
          cases hpartner : partner tokens j with
          | none => rfl
          | some i =>
              have hi := (punctuatorAt_of_partner hpartner).1
              rw [Option.map_some, Option.map_some, tokensBefore_append (by omega)]

/-- What a slash means behind a closing token does not depend on the tokens behind that. -/
theorem regexBehind_append {more : List Token} (h : j < tokens.length) :
    regexBehind v (tokens ++ more) j = regexBehind v tokens j := by
  rw [regexBehind, punctuatorAt_append h, partner_append h, tokensBefore_append (Nat.le_of_lt h),
    regexBehind]
  cases hpartner : partner tokens j with
  | none => rfl
  | some i =>
      have hi := (punctuatorAt_of_partner hpartner).1
      rw [Option.any_some, Option.any_some, tokensBefore_append (by omega)]

/-- Behind a closing parenthesis that is added the group that it ends decides. -/
theorem regexBehind_parenthesis (h : t.isPunctuator ")" = true) :
    regexBehind v (tokens ++ [t]) tokens.length =
      ((unmatched tokens).map (tokensBefore tokens)).head?.any (isControlGroup v) := by
  rw [regexBehind, punctuatorAt_length, if_pos h, partner_length h,
    ← map_tokensBefore_unmatched tokens t, List.head?_map]
  cases (unmatched tokens).head? with
  | none => rfl
  | some i => rfl

/-- Behind a closing brace that is added the brace that it closes decides. -/
theorem regexBehind_brace (h : t.isPunctuator closeBrace = true) :
    regexBehind v (tokens ++ [t]) tokens.length =
      ((openBraces v tokens.reverse).head? != some .expression) := by
  have hclosing : t.isPunctuator ")" = false := Token.isPunctuator_eq h
  rw [regexBehind, punctuatorAt_length, hclosing, if_neg Bool.false_ne_true, tokensBefore_length]

/-- What a slash means is decided at every closing token and stays decided until the next one. -/
theorem regexAfterClose_concat (v : Vocabulary) (tokens : List Token) (t : Token) :
    (latestPlace isClosing (tokens ++ [t])).any (regexBehind v (tokens ++ [t])) =
      if t.isPunctuator ")" then
        ((unmatched tokens).map (tokensBefore tokens)).head?.any (isControlGroup v)
      else if t.isPunctuator closeBrace then
        (openBraces v tokens.reverse).head? != some .expression
      else (latestPlace isClosing tokens).any (regexBehind v tokens) := by
  rw [latestPlace_concat, isClosing]
  cases hclosing : t.isPunctuator ")" with
  | true => rw [Bool.true_or, if_pos rfl, if_pos rfl, Option.any_some, regexBehind_parenthesis hclosing]
  | false =>
      rw [Bool.false_or, if_neg Bool.false_ne_true]
      cases hbrace : t.isPunctuator closeBrace with
      | true => rw [if_pos rfl, if_pos rfl, Option.any_some, regexBehind_brace hbrace]
      | false =>
          rw [if_neg Bool.false_ne_true, if_neg Bool.false_ne_true]
          cases hlatest : latestPlace isClosing tokens with
          | none => rfl
          | some j =>
              rw [Option.any_some, Option.any_some,
                regexBehind_append (any_of_latestPlace hlatest).1]

/-- Behind a closing parenthesis a brace opens what the group in parentheses says. -/
theorem openedBrace_of_parenthesis {ctx : Context}
    (h : endsInPunctuator ")" ctx.before = true) :
    ctx.openedBrace v = braceAfterGroup v ctx.group := by
  obtain ⟨t, ht, hclosing⟩ := (Option.any_eq_true _ _).mp h
  obtain ⟨before, hbefore⟩ := List.head?_eq_some_iff.mp ht
  rw [Token.isPunctuator, Bool.and_eq_true, beq_iff_eq, beq_iff_eq] at hclosing
  rw [openedBrace, hbefore]
  simp only [hclosing.1, hclosing.2, reduceIte]

/-- A brace that is opened behind the tokens belongs to what the tokens alone say. -/
theorem openedBrace_recompute (v : Vocabulary) (tokens : List Token) :
    openedBrace v (recompute v tokens) = braceBehind v tokens.reverse := by
  rw [braceBehind, List.reverse_reverse]
  rfl

/-- The context behind one more token, worked out from the tokens alone. -/
theorem recompute_concat (v : Vocabulary) (tokens : List Token) (t : Token) :
    recompute v (tokens ++ [t]) = (recompute v tokens).push v t := by
  rw [recompute, parens_concat, latestGroup_concat, regexAfterClose_concat, List.reverse_append,
    List.reverse_singleton, List.singleton_append, openBraces, push]
  cases hkind : t.kind with
  | punctuator =>
      have hpunctuator : ∀ a, t.isPunctuator a = (t.text == a) := fun a => by
        rw [Token.isPunctuator, hkind]
        rfl
      simp only [hpunctuator, pushPunctuator, beq_iff_eq, openedBrace_recompute]
      by_cases hopening : t.text = "("
      · simp only [hopening, reduceIte]
        rfl
      · by_cases hclosing : t.text = ")"
        · simp only [hclosing, reduceIte]
          rfl
        · by_cases hbrace : t.text = openBrace
          · simp only [hbrace, reduceIte]
            rfl
          · simp only [hopening, hclosing, hbrace, reduceIte]
            by_cases hend : t.text = closeBrace
            · simp only [hend, reduceIte]
              rfl
            · simp only [hend, reduceIte]
              rfl
  | template =>
      simp only [Token.isPunctuator_eq_false (by rw [hkind]; decide : t.kind ≠ .punctuator)]
      rfl
  | _ =>
      simp only [Token.isPunctuator_eq_false (by rw [hkind]; decide : t.kind ≠ .punctuator)]
      rfl

/-- The context that is kept token by token is the one that the tokens say. -/
theorem ofTokens_eq_recompute (v : Vocabulary) (tokens : List Token) :
    ofTokens v tokens = recompute v tokens := by
  induction tokens using List.reverseRecOn with
  | nil => rfl
  | append_singleton tokens t ih =>
      rw [recompute_concat, ← ih, ofTokens, List.foldl_append]
      rfl

/-- The open parentheses stand at the places that remain unmatched. -/
theorem length_parens_recompute (v : Vocabulary) (tokens : List Token) :
    (recompute v tokens).parens.map List.length = unmatched tokens := by
  rw [recompute, List.map_map, List.map_congr_left (g := id), List.map_id]
  intro i hi
  have := (mem_unmatched_iff.mp hi).1
  simp only [Function.comp, tokensBefore, List.length_reverse, List.length_take, id]
  omega

/-- The latest group begins at the place of the partner of the latest closing parenthesis. -/
theorem length_group_recompute (v : Vocabulary) (tokens : List Token) :
    (recompute v tokens).group.map List.length =
      (latestPlace (·.isPunctuator ")") tokens).bind (partner tokens) := by
  rw [recompute, latestGroup, Option.map_map]
  cases hlatest : latestPlace (·.isPunctuator ")") tokens with
  | none => rfl
  | some j =>
      have hj := (any_of_latestPlace hlatest).1
      rw [Option.bind_some]
      cases hpartner : partner tokens j with
      | none => rfl
      | some i =>
          have hi := (punctuatorAt_of_partner hpartner).1
          simp only [Option.map_some, Function.comp, tokensBefore, List.length_reverse,
            List.length_take, Option.some.injEq]
          omega

/-- Right behind a closing token the answer is that of this token. -/
theorem regexAfterClose_recompute (h : isClosing t = true) :
    (recompute v (tokens ++ [t])).regexAfterClose =
      regexBehind v (tokens ++ [t]) tokens.length := by
  rw [recompute, latestPlace_concat, if_pos h, Option.any_some]

end Context

namespace Lexeme

variable {ctx : Context}

/-- A slash begins a regular expression or a punctuator. -/
theorem read_slash (v : Vocabulary) (ctx : Context) (rest : List Char) :
    read v ctx '/' rest = readForm v ctx '/' ('/' :: rest)
      (if ctx.allowsRegex v then .regex else .punctuator) := by
  have hstart : Identifier.isStart '/' = false := rfl
  rw [read_eq_readForm]
  refine congrArg _ ?_
  simp [form, hstart, singleQuote, doubleQuote, Literal.templateQuote]

/-- A closing brace goes on with a template or is a punctuator. -/
theorem read_closeBrace (v : Vocabulary) (ctx : Context) (rest : List Char) :
    read v ctx '}' rest = readForm v ctx '}' ('}' :: rest)
      (if ctx.inSubstitution then .template else .punctuator) := by
  have hstart : Identifier.isStart '}' = false := rfl
  rw [read_eq_readForm]
  refine congrArg _ ?_
  simp [form, hstart, singleQuote, doubleQuote, Literal.templateQuote]

end Lexeme

/-- Whatever state the reading of a text has come to, its context is the one that the tokens so far
say by themselves: the open parentheses are those that no closing one closes, the latest group is
the one that the latest closing parenthesis closes, the open braces are what going through the
tokens again leaves open, and behind a closing token a slash means what that very token says. So
how a slash and a closing brace are read is decided by these tokens and the vocabulary alone. -/
theorem context_of_reaches {v : Vocabulary} {text : List Char} {s : LexerState}
    (h : LexerState.Reaches v text s) :
    s.context = Context.recompute v s.tokens ∧
    s.context.parens.map List.length = unmatched s.tokens ∧
    s.context.group.map List.length =
      (latestPlace (·.isPunctuator ")") s.tokens).bind (partner s.tokens) ∧
    s.context.braces = Context.openBraces v s.tokens.reverse ∧
    (∀ front t, s.tokens = front ++ [t] → t.isPunctuator ")" = true →
      s.context.regexAfterClose =
        (partner s.tokens front.length).any fun i =>
          Context.isControlGroup v (tokensBefore s.tokens i)) ∧
    (∀ front t, s.tokens = front ++ [t] → t.isPunctuator closeBrace = true →
      s.context.regexAfterClose =
        ((Context.openBraces v front.reverse).head? != some .expression)) ∧
    (∀ rest, Lexeme.read v s.context '/' rest = Lexeme.readForm v s.context '/' ('/' :: rest)
      (if (Context.recompute v s.tokens).allowsRegex v then .regex else .punctuator)) ∧
    ∀ rest, Lexeme.read v s.context '}' rest = Lexeme.readForm v s.context '}' ('}' :: rest)
      (if (Context.openBraces v s.tokens.reverse).head? = some .substitution then .template
        else .punctuator) := by
  have hcontext : s.context = Context.recompute v s.tokens := by
    rw [h.context_eq, Context.ofTokens_eq_recompute]
  rw [hcontext]
  refine ⟨rfl, Context.length_parens_recompute v s.tokens, Context.length_group_recompute v s.tokens,
    rfl, fun front t hsplit ht => ?_, fun front t hsplit ht => ?_,
    fun rest => Lexeme.read_slash v _ rest, fun rest => ?_⟩
  · rw [hsplit, Context.regexAfterClose_recompute (by rw [Context.isClosing, ht, Bool.true_or]),
      Context.regexBehind, punctuatorAt_length, if_pos ht]
  · rw [hsplit, Context.regexAfterClose_recompute (by rw [Context.isClosing, ht, Bool.or_true]),
      Context.regexBehind_brace ht]
  · rw [Lexeme.read_closeBrace, Context.inSubstitution]
    simp only [beq_iff_eq]
    rfl

/-- Behind the head of a statement a slash begins a regular expression, though the parenthesis that
ends it is the second one to close. -/
theorem context_of_reaches_control :
    let v : Vocabulary := ⟨"plain", ⟨[("if", "if")], List.pairwise_singleton _ _⟩,
      List.pairwise_singleton _ _⟩
    let text := "if(f())/x/".toList
    let tokens : List Token := [⟨.keyword, "if", 0⟩, ⟨.punctuator, "(", 2⟩, ⟨.identifier, "f", 3⟩,
      ⟨.punctuator, "(", 4⟩, ⟨.punctuator, ")", 5⟩, ⟨.punctuator, ")", 6⟩]
    let s : LexerState := ⟨Context.ofTokens v tokens, 7, "/x/".toList⟩
    LexerState.Reaches v text s ∧ s.context = Context.recompute v tokens ∧
      s.context.group.map List.length = some 1 ∧ s.context.regexAfterClose = true := by
  intro v text tokens s
  let before (n : Nat) : LexerState :=
    ⟨Context.ofTokens v (tokens.take n), byteLength (text.take (n + 1)), text.drop (n + 1)⟩
  let states := [before 1, before 2, before 3, before 4, before 5, s]
  have hchain : List.IsChain (fun s t => s.next v = .ok (some t))
      (LexerState.initial text :: states) := by decide +kernel
  have h : LexerState.Reaches v text s :=
    LexerState.Reaches.initial.of_isChain hchain s (List.mem_of_getLast? rfl)
  obtain ⟨hcontext, _, hgroup, _, hparenthesis, _⟩ := context_of_reaches h
  refine ⟨h, hcontext, ?_, ?_⟩
  · rw [hgroup]
    decide +kernel
  · rw [hparenthesis (tokens.take 5) ⟨.punctuator, ")", 6⟩ rfl rfl]
    decide +kernel

end Respell
