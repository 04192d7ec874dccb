import Respell.Proofs.Token.Punctuator
import Respell.Proofs.Token.Slash

/-!
# Slashes behind a block

What a brace is opened for is decided by the token before it, and asked again only at the slash
behind the brace that closes it. `EndsBlock` says by the places in the list of tokens where a block
has just been closed, whatever stands in it, and `braceBehind_keyword` and `braceBehind_group` what
the block is for behind a keyword and behind a group. `slash_behind_block` follows the answer to the
next step of the lexer: behind a block the slash is read as a regular expression, complete or not,
where the keyword before the block is one of four or where a group stands between them, and behind
any other keyword it divides. The keyword of a handler without a binding is not among the four.
-/

namespace Respell

open Text

/-- The tokens end with the brace that closes the one at the place `i`. -/
def EndsBlock (tokens : List Token) (i : Nat) : Prop :=
  ∃ front t, tokens = front ++ [t] ∧ t.isPunctuator closeBrace = true ∧
    punctuatorAt openBrace tokens i = true ∧ bracePartner tokens front.length = some i

/-- The keywords behind which a brace is known to open a block. -/
def blockKeywords : List String := ["else", "do", "try", "finally"]

namespace LexerState

/-- The next token is a regular expression that begins at the byte offset `start`, or one begins
there that is not terminated. -/
def ReadsRegex (v : Vocabulary) (s : LexerState) (start : Nat) : Prop :=
  (∃ u t, s.next v = .ok (some u) ∧ u.tokens = s.tokens ++ [t] ∧ t.kind = .regex ∧
    t.start = start) ∨
  s.next v = .error (.unterminatedRegex, start)

/-- The next token is a punctuator that begins with a slash at the byte offset `start`. -/
def ReadsDivision (v : Vocabulary) (s : LexerState) (start : Nat) : Prop :=
  ∃ u t, s.next v = .ok (some u) ∧ u.tokens = s.tokens ++ [t] ∧ t.kind = .punctuator ∧
    t.chars.head? = some '/' ∧ t.start = start

variable {v : Vocabulary} {s : LexerState} {gap rest : List Char}

/-- Where the context allows a regular expression, a slash is read as one. -/
theorem readsRegex_of_allowsRegex (hskip : Trivia.skip s.rest = .ok (gap, '/' :: rest))
    (hallows : s.context.allowsRegex v = true) :
    s.ReadsRegex v (s.offset + byteLength gap) := by
  have hread : Lexeme.read v s.context '/' rest =
      Lexeme.ofMatcher .regex .unterminatedRegex Literal.regex ('/' :: rest) := by
    rw [Lexeme.read_slash, if_pos hallows]
    rfl
  cases hresult : Lexeme.read v s.context '/' rest with
  | ok l =>
      rw [hresult] at hread
      obtain ⟨hkind, _⟩ := Lexeme.ofMatcher_eq_ok_iff.mp hread.symm
      exact Or.inl ⟨_, _, next_eq_some_iff.mpr ⟨_, _, _, _, hskip, hresult, rfl⟩,
        tokens_accept _ _ _, hkind, rfl⟩
  | error e =>
      obtain ⟨rfl, _⟩ := Lexeme.ofMatcher_eq_error_iff.mp (hread.symm.trans hresult)
      right
      rw [next, hskip]
      simp only [hresult]
      rfl

/-- Where it does not, a slash is read as a punctuator. -/
theorem readsDivision_of_not_allowsRegex (hskip : Trivia.skip s.rest = .ok (gap, '/' :: rest))
    (hallows : s.context.allowsRegex v = false) :
    s.ReadsDivision v (s.offset + byteLength gap) := by
  have hread : Lexeme.read v s.context '/' rest =
      Lexeme.ofMatcher .punctuator (.unexpected '/') Punctuator.punctuator ('/' :: rest) := by
    rw [Lexeme.read_slash, hallows]
    rfl
  cases hresult : Lexeme.read v s.context '/' rest with
  | ok l =>
      rw [hresult] at hread
      obtain ⟨hkind, _⟩ := Lexeme.ofMatcher_eq_ok_iff.mp hread.symm
      refine ⟨_, _, next_eq_some_iff.mpr ⟨_, _, _, _, hskip, hresult, rfl⟩, tokens_accept _ _ _,
        hkind, ?_, rfl⟩
      rw [Lexeme.token_chars, Lexeme.head?_of_read hresult]
  | error e =>
      obtain ⟨_, hnone⟩ := Lexeme.ofMatcher_eq_error_iff.mp (hread.symm.trans hresult)
      exact absurd ⟨rest, rfl⟩ (Punctuator.not_prefix_of_eq_none hnone ['/'] (by decide))

end LexerState

variable {v : Vocabulary} {tokens front : List Token} {t : Token} {i j : Nat} {name : String}

/-- A token with a canonical name is a keyword. -/
theorem Token.kind_of_canonical? (h : t.canonical? v = some name) : t.kind = .keyword := by
  rw [canonical?] at h
  split at h
  · assumption
  · cases h

namespace Context

/-- Whether tokens end in one of some keywords is a question of the last one's canonical name. -/
theorem endsInKeyword_cons (before names : List _) (h : t.canonical? v = some name) :
    endsInKeyword v names (t :: before) = names.contains name := by
  rw [endsInKeyword, List.head?_cons]
  dsimp only
  rw [h, Option.any_some]

/-- Behind a keyword a brace opens a block for the four keywords, and else an object. -/
theorem braceBehind_keyword (before : List Token) (h : t.canonical? v = some name) :
    braceBehind v (t :: before) =
      if name ∈ blockKeywords then .statement else .expression := by
  rw [braceBehind, openedBrace]
  dsimp only
  rw [Token.kind_of_canonical? h]
  dsimp only
  rw [endsInKeyword_cons _ _ h]
  simp only [List.contains_iff_mem]
  rfl

/-- Behind a group that follows a keyword a brace opens a block, unless the keyword begins a
function. -/
theorem braceAfterGroup_keyword (before : List Token) (h : t.canonical? v = some name)
    (hname : name ≠ "function") : braceAfterGroup v (some (t :: before)) = .statement := by
  have hkind := Token.kind_of_canonical? h
  have hhead : dropStar (dropName (t :: before)) = t :: before := by
    rw [dropName, hkind, if_neg (by decide), dropStar, endsInPunctuator, List.head?_cons,
      Option.any_some, t.isPunctuator_eq_false (by rw [hkind]; decide)]
    rfl
  have hfunction : ["function"].contains name = false := by simpa using hname
  rw [braceAfterGroup]
  dsimp only
  rw [hhead, endsInKeyword_cons _ _ h, hfunction, if_neg Bool.false_ne_true]

/-- Behind a closing parenthesis a brace opens what the group before it says. -/
theorem braceBehind_closing (front : List Token) (h : t.isPunctuator ")" = true) :
    braceBehind v (t :: front.reverse) = braceAfterGroup v
      ((partner (front ++ [t]) front.length).map (tokensBefore front)) := by
  have hgroup : latestGroup (t :: front.reverse).reverse =
      (partner (front ++ [t]) front.length).map (tokensBefore front) := by
    rw [List.reverse_cons, List.reverse_reverse, latestGroup_concat, if_pos h, partner_length h,
      List.head?_map]
  have hends : endsInPunctuator ")" (t :: front.reverse) = true := h
  rw [braceBehind, openedBrace_of_parenthesis hends, hgroup]

/-- Behind a group that follows a keyword other than that of functions, a brace opens a block. -/
theorem braceBehind_group (hclosing : punctuatorAt ")" tokens i = true)
    (hpartner : partner tokens i = some (j + 1)) (ht : tokens[j]? = some t)
    (h : t.canonical? v = some name) (hname : name ≠ "function") :
    braceBehind v (tokensBefore tokens (i + 1)) = .statement := by
  have hj := (punctuatorAt_of_partner hpartner).1
  obtain ⟨front, u, back, rfl, rfl, hu⟩ := Pairing.split_of_any hclosing
  rw [List.append_cons, partner_append (by simp)] at hpartner
  rw [List.getElem?_append_left (by omega)] at ht
  obtain ⟨hlt, rfl⟩ := List.getElem?_eq_some_iff.mp ht
  have hbefore : tokensBefore (front ++ u :: back) (front.length + 1) = u :: front.reverse := by
    rw [List.append_cons, tokensBefore, List.take_left' (by simp), List.reverse_append]
    rfl
  rw [hbefore, braceBehind_closing front hu, hpartner, Option.map_some, tokensBefore_succ hlt,
    braceAfterGroup_keyword _ h hname]

end Context

/-- Behind a block a slash means what the brace of the block was opened for. -/
theorem allowsRegex_block (h : EndsBlock tokens i) :
    (Context.ofTokens v tokens).allowsRegex v =
      (Context.braceBehind v (tokensBefore tokens i) != .expression) := by
  obtain ⟨front, t, rfl, hclosing, hopening, hpartner⟩ := h
  have hi := (Pairing.opens_of_partner hpartner).1
  rw [punctuatorAt_append hi] at hopening
  have hpiece : front[i]?.any Token.opensSubstitution = false := by
    obtain ⟨u, hu, hbrace⟩ := Option.any_eq_true _ _ |>.mp hopening
    rw [Token.isPunctuator, Bool.and_eq_true, beq_iff_eq] at hbrace
    rw [hu, Option.any_some, Token.opensSubstitution, hbrace.1]
    rfl
  rw [allowsRegex_closeBrace v hclosing hpartner hpiece, tokensBefore_append (Nat.le_of_lt hi)]

/-- A slash right behind a block, as the next thing but blanks and comments, is read as a regular
expression where the block begins behind one of the four keywords, and as a division where it begins
behind another one. Where it begins behind a group that follows a keyword, the slash is read as a
regular expression, unless the block is the body of a function. -/
theorem slash_behind_block {v : Vocabulary} {text gap rest : List Char} {s : LexerState} {i : Nat}
    (hs : LexerState.Reaches v text s) (hskip : Trivia.skip s.rest = .ok (gap, '/' :: rest))
    (hblock : EndsBlock s.tokens (i + 1)) :
    (∀ t name, s.tokens[i]? = some t → t.canonical? v = some name →
      (name ∈ blockKeywords → s.ReadsRegex v (s.offset + byteLength gap)) ∧
      (name ∉ blockKeywords → s.ReadsDivision v (s.offset + byteLength gap))) ∧
    ∀ j t name, punctuatorAt ")" s.tokens i = true → partner s.tokens i = some (j + 1) →
      s.tokens[j]? = some t → t.canonical? v = some name → name ≠ "function" →
      s.ReadsRegex v (s.offset + byteLength gap) := by
  have hallows := allowsRegex_block (v := v) hblock
  rw [← hs.context_eq] at hallows
  refine ⟨fun t name ht hname => ?_, fun j t name hclosing hpartner ht hname hfunction => ?_⟩
  · obtain ⟨hlt, rfl⟩ := List.getElem?_eq_some_iff.mp ht
    rw [tokensBefore_succ hlt, Context.braceBehind_keyword _ hname] at hallows
    constructor
    · intro hmem
      rw [if_pos hmem] at hallows
      exact LexerState.readsRegex_of_allowsRegex hskip hallows
    · intro hmem
      rw [if_neg hmem] at hallows
      exact LexerState.readsDivision_of_not_allowsRegex hskip hallows
  · rw [Context.braceBehind_group hclosing hpartner ht hname hfunction] at hallows
    exact LexerState.readsRegex_of_allowsRegex hskip hallows

/-- Behind a block with a template in it, in which there is an object, a slash is read as a regular
expression. -/
theorem slash_behind_block_template :
    let v : Vocabulary := ⟨"plain", ⟨[("else", "else")], List.pairwise_singleton _ _⟩,
      List.pairwise_singleton _ _⟩
    let text := "else\x7b\x60$\x7b\x7b\x7d\x7d\x60\x7d/a/".toList
    let tokens : List Token := [⟨.keyword, "else", 0⟩, ⟨.punctuator, openBrace, 4⟩,
      ⟨.template, "\x60$\x7b", 5⟩, ⟨.punctuator, openBrace, 8⟩, ⟨.punctuator, closeBrace, 9⟩,
      ⟨.template, "\x7d\x60", 10⟩, ⟨.punctuator, closeBrace, 12⟩]
    let s : LexerState := ⟨Context.ofTokens v tokens, 13, "/a/".toList⟩
    LexerState.Reaches v text s ∧ Trivia.skip s.rest = .ok ([], '/' :: ['a', '/']) ∧
      EndsBlock s.tokens 1 ∧ s.ReadsRegex v 13 := by
  intro v text tokens s
  let before (n offset : Nat) : LexerState :=
    ⟨Context.ofTokens v (tokens.take n), offset, text.drop offset⟩
  let states := [before 1 4, before 2 5, before 3 8, before 4 9, before 5 10, before 6 12, s]
  have hchain : List.IsChain (fun s t => s.next v = .ok (some t))
      (LexerState.initial text :: states) := by decide +kernel
  have h : LexerState.Reaches v text s :=
    LexerState.Reaches.initial.of_isChain hchain s (List.mem_of_getLast? rfl)
  have htokens : s.tokens = tokens := by decide +kernel
  have hskip : Trivia.skip s.rest = .ok ([], '/' :: ['a', '/']) := by decide +kernel
  have hblock : EndsBlock s.tokens 1 := by
    rw [htokens]
    exact ⟨tokens.take 6, ⟨.punctuator, closeBrace, 12⟩, rfl, rfl, rfl, by decide +kernel⟩
  have hkeyword : s.tokens[0]? = some ⟨.keyword, "else", 0⟩ := by rw [htokens]; rfl
  have hcanonical : Token.canonical? v ⟨.keyword, "else", 0⟩ = some "else" := by decide +kernel
  exact ⟨h, hskip, hblock,
    ((slash_behind_block h hskip hblock).1 _ _ hkeyword hcanonical).1 (by decide)⟩

/-- Behind the block of a handler without a binding a slash is not read as a regular expression. -/
theorem slash_behind_handler :
    ¬ ∀ (v : Vocabulary) (text gap rest : List Char) (s : LexerState) (i : Nat) (t : Token)
        (name : String), LexerState.Reaches v text s → Trivia.skip s.rest = .ok (gap, '/' :: rest) →
      EndsBlock s.tokens (i + 1) → s.tokens[i]? = some t → t.canonical? v = some name →
      name ∈ "catch" :: blockKeywords → s.ReadsRegex v (s.offset + byteLength gap) := by
  intro hall
  let v : Vocabulary := ⟨"plain", ⟨[("catch", "catch"), ("try", "try")], by decide⟩, by decide⟩
  let text := "try\x7b\x7dcatch\x7b\x7d/a/".toList
  let tokens : List Token := [⟨.keyword, "try", 0⟩, ⟨.punctuator, openBrace, 3⟩,
    ⟨.punctuator, closeBrace, 4⟩, ⟨.keyword, "catch", 5⟩, ⟨.punctuator, openBrace, 10⟩,
    ⟨.punctuator, closeBrace, 11⟩]
  let before (n offset : Nat) : LexerState :=
    ⟨Context.ofTokens v (tokens.take n), offset, text.drop offset⟩
  let s : LexerState := before 6 12
  let states := [before 1 3, before 2 4, before 3 5, before 4 10, before 5 11, s]
  have hchain : List.IsChain (fun s t => s.next v = .ok (some t))
      (LexerState.initial text :: states) := by decide +kernel
  have h : LexerState.Reaches v text s :=
    LexerState.Reaches.initial.of_isChain hchain s (List.mem_of_getLast? rfl)
  have htokens : s.tokens = tokens := by decide +kernel
  have hblock : EndsBlock s.tokens 4 := by
    rw [htokens]
    exact ⟨tokens.take 5, ⟨.punctuator, closeBrace, 11⟩, rfl, rfl, rfl, by decide +kernel⟩
  have hkeyword : s.tokens[3]? = some ⟨.keyword, "catch", 5⟩ := by rw [htokens]; rfl
  have hcanonical : Token.canonical? v ⟨.keyword, "catch", 5⟩ = some "catch" := by decide +kernel
  have hregex := hall v text [] ['a', '/'] s 3 _ _ h (by decide +kernel) hblock hkeyword hcanonical
    List.mem_cons_self
  have hnext : s.next v = .ok (some ⟨Context.ofTokens v (tokens ++ [⟨.punctuator, "/", 12⟩]), 13,
      ['a', '/']⟩) := by decide +kernel
  rcases hregex with ⟨u, t, hu, htoken, hkind, _⟩ | hfault
  · cases hnext.symm.trans hu
    have hlast := congrArg List.getLast? htoken
    rw [List.getLast?_concat] at hlast
    have hdivision : t = ⟨.punctuator, "/", 12⟩ := by
      refine Option.some.inj (hlast.symm.trans ?_)
      decide +kernel
    rw [hdivision] at hkind
    cases hkind
  · cases hnext.symm.trans hfault

end Respell
