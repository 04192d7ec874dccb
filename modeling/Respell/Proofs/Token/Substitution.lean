import Respell.Proofs.Token.Enclosure
import Respell.Proofs.Token.Slash

/-!
# The contents of a substitution

What stands in a substitution is split into tokens as what stands in parentheses is.
`Parenthesized` names the texts for which this can be asked: between parentheses they give tokens of
which the last one closes the first, their braces are in pairs, and their substitutions are closed.
`tokenize_substitution_iff` states that between the marks of a substitution such a text gives the
same tokens two bytes further on, unless it begins with a regular expression. The lexer does not
find one right behind a piece of a template.
-/

namespace Respell

open Text

/-- A parenthesis that opens a text. -/
def openingParenthesis : Token := ⟨.punctuator, "(", 0⟩

/-- The piece of a template that opens a text with a substitution. -/
def openingTemplate : Token := ⟨.template, "\x60$\x7b", 0⟩

/-- The tokens `inner` of the text `body`, with parentheses around it. -/
def inParentheses (body : String) (inner : List Token) : List Token :=
  openingParenthesis :: (inner ++ [⟨.punctuator, ")", 1 + body.utf8ByteSize⟩])

/-- The tokens `inner` of the text `body`, with the marks of a substitution around it. -/
def inTemplate (body : String) (inner : List Token) : List Token :=
  openingTemplate ::
    (inner.map (Token.shift 2) ++ [⟨.template, "\x7d\x60", 3 + body.utf8ByteSize⟩])

/-- In parentheses the text gives the tokens `inner` between the two parentheses, which are a pair.
The braces among these tokens are in pairs, and every substitution that they open is closed. -/
structure Parenthesized (v : Vocabulary) (body : String) (inner : List Token) : Prop where
  tokenize : tokenize v ("(" ++ body ++ ")") = .ok (inParentheses body inner)
  group : partner (inParentheses body inner) (inner.length + 1) = some 0
  braces : Pairing.Balanced (·.isPunctuator openBrace) (·.isPunctuator closeBrace) inner
  substitutions : ∀ i, inner[i]?.any Token.opensSubstitution = true →
    ∃ j, Pairing.partner Token.opensSubstitution Token.closesSubstitution inner j = some i

variable {v : Vocabulary} {body : String} {inner front back : List Token} {t : Token} {i j : Nat}

/-- Between the parentheses stand the tokens. -/
theorem getElem?_inParentheses (h : j < inner.length) :
    (inParentheses body inner)[j + 1]? = inner[j]? := by
  rw [inParentheses, List.getElem?_cons_succ, List.getElem?_append_left h]

/-- A token that is one of them parts the tokens with the parentheses. -/
theorem inParentheses_split (body : String) (front : List Token) (t : Token) (back : List Token) :
    ∃ more, inParentheses body (front ++ t :: back) = (openingParenthesis :: front) ++ t :: more :=
  ⟨back ++ [⟨.punctuator, ")", 1 + body.utf8ByteSize⟩], by simp [inParentheses]⟩

/-- A token with a property that the parentheses do not have stands between them. -/
theorem any_inParentheses {p : Token → Bool} (hopening : p openingParenthesis = false)
    (hclosing : ∀ n, p ⟨.punctuator, ")", n⟩ = false)
    (h : (inParentheses body inner)[i]?.any p = true) :
    ∃ k, i = k + 1 ∧ k < inner.length ∧ inner[k]?.any p = true := by
  cases i with
  | zero =>
      rw [inParentheses, List.getElem?_cons_zero, Option.any_some, hopening] at h
      cases h
  | succ k =>
      by_cases hk : k < inner.length
      · rw [getElem?_inParentheses hk] at h
        exact ⟨k, rfl, hk, h⟩
      · rw [inParentheses, List.getElem?_cons_succ, List.getElem?_append_right (by omega)] at h
        cases hlast : k - inner.length with
        | zero =>
            rw [hlast, List.getElem?_cons_zero, Option.any_some, hclosing] at h
            cases h
        | succ m =>
            rw [hlast] at h
            cases h

/-- Between the parentheses the pairs of other tokens are the same as without them. -/
theorem partner_inParentheses {opens closes : Token → Bool}
    (hopening : opens openingParenthesis = false ∧ closes openingParenthesis = false)
    (h : Pairing.partner opens closes inner j = some i) (body : String) :
    Pairing.partner opens closes (inParentheses body inner) (j + 1) = some (i + 1) ∧
      (inParentheses body inner)[j + 1]?.any closes = true := by
  have hcloses := (Pairing.opens_of_partner h).2.2
  have hj := Pairing.lt_of_any hcloses
  rw [inParentheses, Pairing.partner_cons hopening.1 hopening.2, Pairing.partner_append hj, h,
    ← inParentheses, getElem?_inParentheses hj]
  exact ⟨rfl, hcloses⟩

namespace Parenthesized

/-- A brace that is closed among the tokens is closed by the same token between parentheses. -/
theorem bracePartner_of_brace (h : Parenthesized v body inner)
    (hpartner : Pairing.partner (·.isPunctuator openBrace) (·.isPunctuator closeBrace) inner j =
      some i) : bracePartner (inParentheses body inner) (j + 1) = some (i + 1) := by
  obtain ⟨hshifted, hcloses⟩ := partner_inParentheses ⟨rfl, rfl⟩ hpartner body
  rw [← bracePartner_eq_of_brace h.tokenize hcloses, hshifted]

/-- So is a substitution. -/
theorem bracePartner_of_substitution (h : Parenthesized v body inner)
    (hpartner : Pairing.partner Token.opensSubstitution Token.closesSubstitution inner j = some i) :
    bracePartner (inParentheses body inner) (j + 1) = some (i + 1) := by
  obtain ⟨hshifted, hcloses⟩ := partner_inParentheses ⟨rfl, rfl⟩ hpartner body
  rw [← bracePartner_eq_of_substitution h.tokenize hcloses, hshifted]

/-- Nothing is left open between the parentheses. -/
theorem openPlaces_eq_nil (h : Parenthesized v body inner) :
    openPlaces (inParentheses body inner) = [] := by
  rw [List.eq_nil_iff_forall_not_mem]
  intro i hi
  obtain ⟨hopens, hfree⟩ := Pairing.mem_unmatched_iff.mp hi
  obtain ⟨k, rfl, _, hk⟩ := any_inParentheses rfl (fun _ => rfl) hopens
  obtain ⟨t, ht, hopens⟩ := Option.any_eq_true _ _ |>.mp hk
  rw [Token.opensBrace, Bool.or_eq_true] at hopens
  rcases hopens with hbrace | hpiece
  · obtain ⟨j, hj⟩ := h.braces.opening k (by rw [ht]; exact hbrace)
    exact hfree _ (h.bracePartner_of_brace hj)
  · obtain ⟨j, hj⟩ := h.substitutions k (by rw [ht]; exact hpiece)
    exact hfree _ (h.bracePartner_of_substitution hj)

/-- Before the last parenthesis no brace and no substitution is open. -/
theorem braces_eq_nil (h : Parenthesized v body inner) :
    (Context.ofTokens v (openingParenthesis :: inner)).braces = [] := by
  have hplaces := h.openPlaces_eq_nil
  rw [inParentheses, ← List.cons_append, openPlaces, Pairing.unmatched_concat] at hplaces
  rw [Context.ofTokens_eq_recompute]
  show Context.openBraces v _ = []
  rw [Context.openBraces_eq, List.map_eq_nil_iff]
  exact hplaces

/-- Between the parentheses the one that opens the group is open, and no token closes it. -/
theorem two_le_length_parens (h : Parenthesized v body (front ++ t :: back))
    (ht : t.isPunctuator ")" = true) :
    2 ≤ (Context.ofTokens v (openingParenthesis :: front)).parens.length := by
  obtain ⟨more, hsplit⟩ := inParentheses_split body front t back
  have hgroup := h.group
  rw [hsplit, partner_eq] at hgroup
  have hlength : (openingParenthesis :: front).length < (front ++ t :: back).length + 1 := by simp
  -- Only the last parenthesis closes the first one.
  have hopen : 0 ∈ unmatched (openingParenthesis :: front) := by
    refine mem_unmatched_iff.mpr ⟨by simp, rfl, fun k hk hpartner => ?_⟩
    rw [← partner_append hk, partner_eq] at hpartner
    have := Pairing.eq_of_partner hpartner hgroup
    omega
  have hhead : (unmatched (openingParenthesis :: front)).head? ≠ some 0 := by
    intro hfirst
    rw [← partner_length ht, ← partner_append (by simp) more, partner_eq,
      List.append_assoc, List.singleton_append] at hfirst
    have := Pairing.eq_of_partner hfirst hgroup
    omega
  have hparens := congrArg List.length
    (Context.length_parens_recompute v (openingParenthesis :: front))
  rw [List.length_map] at hparens
  rw [Context.ofTokens_eq_recompute, hparens]
  match hplaces : unmatched (openingParenthesis :: front) with
  | [] =>
      rw [hplaces] at hopen
      cases hopen
  | [i] =>
      rw [hplaces] at hopen hhead
      rw [List.mem_singleton.mp hopen] at hhead
      exact absurd rfl hhead
  | i :: j :: places => exact Nat.le_add_left 2 _

/-- A token between the parentheses closes a brace or a substitution that is open. -/
theorem braces_ne_nil (h : Parenthesized v body (front ++ t :: back)) (ht : t.closesBrace = true) :
    (Context.ofTokens v (openingParenthesis :: front)).braces ≠ [] := by
  obtain ⟨more, hsplit⟩ := inParentheses_split body front t back
  have htokens := h.tokenize
  rw [hsplit] at htokens
  have hinside := inSubstitution_of_tokenize htokens ht
  cases hpiece : t.closesSubstitution with
  | true =>
      intro hnil
      rw [hpiece, Context.inSubstitution, hnil] at hinside
      cases hinside
  | false =>
      have hbrace := t.isPunctuator_closeBrace ht
      rw [hpiece] at hbrace
      obtain ⟨i, hi⟩ := h.braces.closing front.length (by
        rw [List.getElem?_append_right (Nat.le_refl _), Nat.sub_self]
        exact hbrace)
      have hpartner := h.bracePartner_of_brace hi
      rw [hsplit] at hpartner
      have hlength : front.length + 1 = (openingParenthesis :: front).length := rfl
      rw [hlength, bracePartner_length, if_pos ht] at hpartner
      rw [Context.ofTokens_eq_recompute]
      show Context.openBraces v _ ≠ []
      rw [Context.openBraces_eq, ne_eq, List.map_eq_nil_iff]
      intro hnil
      rw [hnil] at hpartner
      cases hpartner

/-- Behind the first parenthesis the tokens up to the last one stay inside. -/
theorem staysInside (front : List Token) (h : Parenthesized v body (front ++ back)) :
    Context.StaysInside v (Context.ofTokens v (openingParenthesis :: front)) back := by
  induction back generalizing front with
  | nil => trivial
  | cons t back ih =>
      refine ⟨h.two_le_length_parens, h.braces_ne_nil, ?_⟩
      rw [List.append_cons] at h
      have hnext := ih (front ++ [t]) h
      rw [← List.cons_append, Context.ofTokens, List.foldl_append] at hnext
      exact hnext

end Parenthesized

namespace LexerState

/-- The reading of a text in parentheses goes on behind the first one with the pieces of the
text. -/
theorem yields_of_inParentheses
    (h : tokenize v ("(" ++ body ++ ")") = .ok (inParentheses body inner)) :
    ∃ s pieces p last, Yields v s (pieces ++ [p]) last ∧
      s.context = Context.ofTokens v [openingParenthesis] ∧ s.offset = 1 ∧
      pieces.map Piece.token = inner ∧ p.token.start = 1 + body.utf8ByteSize ∧
      p.token.chars = [')'] ∧ body.toList = Piece.weave Token.chars pieces p.gap := by
  obtain ⟨all, last, hyields, htokens⟩ := tokenize_eq_ok_iff.mp h
  have htext : ("(" ++ body ++ ")").toList = '(' :: (body.toList ++ [')']) := by simp
  have hinitial : LexerState.initial ('(' :: (body.toList ++ [')'])) =
      ⟨Context.initial, 0, '(' :: (body.toList ++ [')'])⟩ := rfl
  rw [htext, hinitial] at hyields
  obtain ⟨x, rest, rfl, hx, hrest⟩ := List.map_eq_cons_iff.mp htokens.symm
  obtain ⟨pieces, ps, rfl, hpieces, hps⟩ := List.map_eq_append_iff.mp hrest
  obtain ⟨p, ps, rfl, hp, hnil⟩ := List.map_eq_cons_iff.mp hps
  obtain rfl := List.map_eq_nil_iff.mp hnil
  cases hyields with
  | @token _ gap _ _ c l _ hskip hread hyields =>
      rw [Trivia.skip_of_stops ⟨rfl, rfl, rfl⟩] at hskip
      cases hskip
      have happend := (Lexeme.reads_of_read hread).1
      have hchars := congrArg Token.chars hx
      rw [Lexeme.token_chars] at hchars
      rw [hchars] at happend
      have hbehind : l.rest = body.toList ++ [')'] := (List.cons.inj happend).2
      have htoken : l.token (0 + byteLength []) = openingParenthesis := hx
      have hoffset : (l.token (0 + byteLength [])).stop = 1 := by rw [htoken]; rfl
      have hclosing : p.token.chars = [')'] := by
        rw [hp]
        show ")".toList = _
        rfl
      refine ⟨_, pieces, p, last, hyields, ?_, hoffset, hpieces, by rw [hp], hclosing, ?_⟩
      · show Context.initial.push v (l.token (0 + byteLength [])) = _
        rw [htoken]
        rfl
      · -- The last parenthesis ends the text, since it begins right behind the text inside.
        have hlast : last = [] := by
          by_contra hne
          have hpos := byteLength_pos hne
          have hstop : p.token.stop + byteLength last =
              (l.token (0 + byteLength [])).stop + byteLength l.rest := hyields.stop_add
          have hbody : byteLength body.toList = body.utf8ByteSize := by
            rw [← utf8ByteSize_ofList, String.ofList_toList]
          rw [hoffset, hbehind, byteLength_append, hbody, Token.stop_eq, hclosing, hp] at hstop
          dsimp only at hstop
          omega
        have hweave : Piece.weave Token.chars (pieces ++ [p]) last = l.rest := hyields.weave_eq
        rw [hlast, Piece.weave_append, Piece.weave, hclosing, Piece.weave, List.append_nil,
          Piece.weave_eq_append, hbehind, ← List.append_assoc] at hweave
        rw [Piece.weave_eq_append]
        exact (List.append_cancel_right hweave).symm

/-- The reading of a text in a substitution goes on behind the opening mark with the text. -/
theorem yields_of_template {pieces : List Piece} {last body : List Char}
    (h : Yields v ⟨Context.ofTokens v [openingTemplate], 3, body⟩ pieces last) :
    Yields v (initial ('\x60' :: '$' :: '{' :: body)) (⟨[], openingTemplate⟩ :: pieces) last := by
  have hskip : Trivia.skip ('\x60' :: '$' :: '{' :: body) =
      .ok ([], '\x60' :: '$' :: '{' :: body) :=
    Trivia.skip_of_stops ⟨rfl, rfl, rfl⟩
  have hread : Lexeme.read v Context.initial '\x60' ('$' :: '{' :: body) =
      .ok ⟨.template, ['\x60', '$', '{'], body⟩ := rfl
  exact .token hskip hread h

end LexerState

/-- Behind the two openings the contexts are related. -/
theorem Context.enclosed_opening (v : Vocabulary) :
    Context.Enclosed v (Context.ofTokens v [openingParenthesis])
      (Context.ofTokens v [openingTemplate]) where
  before := .cons (.opening rfl rfl) .nil
  parens := ⟨[], [], rfl, .nil⟩
  group := .none
  braces := rfl
  regexAfterClose := rfl

/-- In a substitution a text gives the tokens that it gives in parentheses, two bytes further on, if
the first of them is no regular expression. If it is one, the slash is not read as its beginning. -/
theorem tokenize_substitution_iff (h : Parenthesized v body inner) :
    tokenize v ("\x60$\x7b" ++ body ++ "\x7d\x60") = .ok (inTemplate body inner) ↔
      ∀ t ∈ inner.head?, t.kind ≠ .regex := by
  constructor
  · intro htemplate t ht hkind
    obtain ⟨more, rfl⟩ := List.head?_eq_some_iff.mp ht
    rw [inTemplate, List.map_cons, List.cons_append, ← List.singleton_append] at htemplate
    have hallows := ((kind_eq_regex_iff htemplate).mp hkind).2
    rw [← List.nil_append [openingTemplate],
      allowsRegex_value v [] (by decide) (by decide)] at hallows
    cases hallows
  · intro hfirst
    obtain ⟨s, pieces, p, last, hyields, hcontext, hoffset, rfl, hstart, hclosing, hbody⟩ :=
      LexerState.yields_of_inParentheses h.tokenize
    have hslash : ∀ q ∈ pieces.head?, q.token.chars.head? ≠ some '/' := by
      intro q hq hslash
      obtain ⟨more, rfl⟩ := List.head?_eq_some_iff.mp hq
      refine hfirst q.token rfl ?_
      have htokens := h.tokenize
      rw [inParentheses, List.map_cons, List.cons_append, ← List.singleton_append] at htokens
      exact (kind_eq_regex_iff htokens).mpr ⟨hslash, rfl⟩
    have hinside := h.staysInside []
    have hbraces := h.braces_eq_nil
    rw [← List.singleton_append, Context.ofTokens, List.foldl_append, ← Context.ofTokens] at hbraces
    rw [← hcontext] at hinside hbraces
    obtain ⟨others, hothers, htokens⟩ := hyields.enclosed (n := 2)
      (t := ⟨Context.ofTokens v [openingTemplate], 3, body.toList ++ ['}', Literal.templateQuote]⟩)
      hclosing (by rw [hcontext]; exact Context.enclosed_opening v) hinside hbraces
      (Or.inr hslash) (by rw [hoffset]) (by
        show body.toList ++ _ = _
        rw [hbody, Piece.weave_eq_append, Piece.weave_eq_append _ _ (p.gap ++ _),
          List.append_assoc])
    refine tokenize_eq_ok_iff.mpr ⟨⟨[], openingTemplate⟩ :: others, [], ?_, ?_⟩
    · have htext : ("\x60$\x7b" ++ body ++ "\x7d\x60").toList =
          '\x60' :: '$' :: '{' :: (body.toList ++ ['}', Literal.templateQuote]) := by
        simp [Literal.templateQuote]
      rw [htext]
      exact LexerState.yields_of_template hothers
    · have hlast : p.token.start + 2 = 3 + body.utf8ByteSize := by omega
      rw [List.map_cons, htokens, hlast]
      rfl

/-- An object in a substitution: its closing brace does not end the substitution. -/
theorem tokenize_substitution_object :
    let v : Vocabulary := ⟨"plain", ⟨[], List.Pairwise.nil⟩, List.Pairwise.nil⟩
    let inner : List Token := [⟨.punctuator, "\x7b", 1⟩, ⟨.identifier, "a", 2⟩,
      ⟨.punctuator, "\x7d", 3⟩]
    Parenthesized v "\x7ba\x7d" inner ∧
      tokenize v ("\x60$\x7b" ++ "\x7ba\x7d" ++ "\x7d\x60") =
        .ok (inTemplate "\x7ba\x7d" inner) := by
  intro v inner
  have h : Parenthesized v "\x7ba\x7d" inner := {
    tokenize := by decide +kernel
    group := by decide +kernel
    braces := {
      closing := fun j hj => match j with
        | 0 => absurd hj (by decide +kernel)
        | 1 => absurd hj (by decide +kernel)
        | 2 => ⟨0, by decide +kernel⟩
        | j + 3 => by cases hj
      opening := fun i hi => match i with
        | 0 => ⟨2, by decide +kernel⟩
        | 1 => absurd hi (by decide +kernel)
        | 2 => absurd hi (by decide +kernel)
        | i + 3 => by cases hi }
    substitutions := fun i hi => match i with
      | 0 => absurd hi (by decide +kernel)
      | 1 => absurd hi (by decide +kernel)
      | 2 => absurd hi (by decide +kernel)
      | i + 3 => by cases hi }
  exact ⟨h, (tokenize_substitution_iff h).mpr fun t ht => by cases ht; decide⟩

/-- A regular expression right behind the opening of a substitution is not found. -/
theorem tokenize_substitution_regex :
    ¬ ∀ (v : Vocabulary) (body : String) (inner : List Token), Parenthesized v body inner →
      tokenize v ("\x60$\x7b" ++ body ++ "\x7d\x60") = .ok (inTemplate body inner) := by
  intro hall
  let v : Vocabulary := ⟨"plain", ⟨[], List.Pairwise.nil⟩, List.Pairwise.nil⟩
  let inner : List Token := [⟨.regex, "/a/", 1⟩]
  have h : Parenthesized v "/a/" inner := {
    tokenize := by decide +kernel
    group := by decide +kernel
    braces := {
      closing := fun j hj => match j with
        | 0 => absurd hj (by decide +kernel)
        | j + 1 => by cases hj
      opening := fun i hi => match i with
        | 0 => absurd hi (by decide +kernel)
        | i + 1 => by cases hi }
    substitutions := fun i hi => match i with
      | 0 => absurd hi (by decide +kernel)
      | i + 1 => by cases hi }
  have hregex := hall v "/a/" inner h
  revert hregex
  decide +kernel

end Respell
