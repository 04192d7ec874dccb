import Respell.Proofs.Token.Literal
import Respell.Proofs.Token.Replay

/-!
# Braces and substitutions in pairs

A brace and a substitution of a template are closed by the same character, and the lexer tells from
the open ones which of the two a closing brace ends. `bracePartner` pairs them by their places in
the list of tokens, and `openBraces_eq` states that the lexer has exactly the open ones that these
pairs leave. So in the tokens of a text a piece of a template closes a substitution and a punctuator
closes a brace, and the pairs are nested in each other, which is `Nested`. What the pairs do not
exclude is that a substitution stays open to the end: `nested_of_tokenize` says when every one is
closed.
-/

namespace Respell

open Text

namespace Token

/-- The token is a piece of a template that goes on with a substitution. -/
def opensSubstitution (t : Token) : Bool :=
  t.kind == .template && ['$', '{'].isSuffixOf t.text.toList

/-- The token is a piece of a template that comes behind a substitution. -/
def closesSubstitution (t : Token) : Bool :=
  t.kind == .template && t.text.toList.head? == some '}'

/-- The token opens a brace or a substitution. -/
def opensBrace (t : Token) : Bool := t.isPunctuator openBrace || t.opensSubstitution

/-- The token closes a brace or a substitution. -/
def closesBrace (t : Token) : Bool := t.isPunctuator closeBrace || t.closesSubstitution

end Token

/-- The place of the token whose brace or substitution the token at the place `j` closes. -/
def bracePartner (tokens : List Token) (j : Nat) : Option Nat :=
  Pairing.partner Token.opensBrace Token.closesBrace tokens j

/-- The places of the tokens whose brace or substitution is never closed, the latest first. -/
def openPlaces (tokens : List Token) : List Nat :=
  Pairing.unmatched Token.opensBrace Token.closesBrace tokens

/-- Pieces of templates and braces are nested: every piece has both its marks, every one behind a
substitution closes one before it, substitutions and braces are never taken for each other, and what
is opened or closed inside a pair has its other half inside that pair as well. -/
structure Nested (tokens : List Token) : Prop where
  marks : ∀ t ∈ tokens, t.kind = .template →
    (t.chars.head? = some Literal.templateQuote ∨ t.closesSubstitution = true) ∧
    (t.chars.getLast? = some Literal.templateQuote ∨ t.opensSubstitution = true)
  closing : ∀ j, tokens[j]?.any Token.closesSubstitution = true →
    ∃ i, i < j ∧ bracePartner tokens j = some i
  alike : ∀ i j, bracePartner tokens j = some i →
    tokens[i]?.any Token.opensSubstitution = tokens[j]?.any Token.closesSubstitution
  inside : ∀ i j k, bracePartner tokens j = some i → i < k → k < j →
    (tokens[k]?.any Token.opensBrace = true →
      ∃ m, k < m ∧ m < j ∧ bracePartner tokens m = some k) ∧
    (tokens[k]?.any Token.closesBrace = true →
      ∃ m, i < m ∧ m < k ∧ bracePartner tokens k = some m)

variable {v : Vocabulary} {text : String} {tokens front back : List Token} {t : Token} {i j : Nat}

namespace Context

/-- What a brace opens is never a substitution. -/
theorem openedBrace_ne_substitution (v : Vocabulary) (ctx : Context) :
    openedBrace v ctx ≠ .substitution := by
  have hgroup : ∀ group, braceAfterGroup v group ≠ .substitution := by
    intro group
    cases group with
    | none => simp [braceAfterGroup]
    | some opener =>
        rw [braceAfterGroup]
        dsimp only
        split
        · split <;> split <;> simp
        · simp
  rw [openedBrace]
  split
  · simp
  · split
    · split
      · exact hgroup _
      · split <;> simp
    · split <;> simp
    · simp
    · simp

/-- What the opening token at the place `i` opens. -/
def openedAt (v : Vocabulary) (tokens : List Token) (i : Nat) : Brace :=
  if tokens[i]?.any Token.opensSubstitution then .substitution
  else braceBehind v (tokensBefore tokens i)

/-- What a token opens does not depend on the tokens behind it. -/
theorem openedAt_append {more : List Token} (h : i < tokens.length) :
    openedAt v (tokens ++ more) i = openedAt v tokens i := by
  rw [openedAt, openedAt, List.getElem?_append_left h, tokensBefore_append (Nat.le_of_lt h)]

/-- What a token opens that is added. -/
theorem openedAt_length : openedAt v (tokens ++ [t]) tokens.length =
    if t.opensSubstitution then .substitution else braceBehind v tokens.reverse := by
  rw [openedAt, List.getElem?_concat_length, Option.any_some, tokensBefore_length]

/-- Only a substitution is opened as one. -/
theorem openedAt_eq_substitution_iff :
    openedAt v tokens i = .substitution ↔ tokens[i]?.any Token.opensSubstitution = true := by
  rw [openedAt]
  split
  · rename_i hopens
    exact iff_of_true rfl hopens
  · rename_i hopens
    exact iff_of_false (openedBrace_ne_substitution v _) hopens

/-- The open braces are those at the places that remain when all are paired. -/
theorem openBraces_eq (v : Vocabulary) (tokens : List Token) :
    openBraces v tokens.reverse = (openPlaces tokens).map (openedAt v tokens) := by
  induction tokens using List.reverseRecOn with
  | nil => rfl
  | append_singleton tokens t ih =>
      have hkept : (openPlaces tokens).map (openedAt v (tokens ++ [t])) =
          openBraces v tokens.reverse := by
        rw [ih]
        refine List.map_congr_left fun i hi => ?_
        exact openedAt_append (Pairing.lt_of_any (Pairing.mem_unmatched_iff.mp hi).1)
      have hplaces : (openPlaces (tokens ++ [t])).map (openedAt v (tokens ++ [t])) =
          (if t.opensBrace then [openedAt v (tokens ++ [t]) tokens.length] else []) ++
            if t.closesBrace then (openBraces v tokens.reverse).tail
            else openBraces v tokens.reverse := by
        rw [openPlaces, Pairing.unmatched_concat, List.map_append, ← hkept, ← List.map_tail]
        congr 1
        · split <;> rfl
        · split <;> rfl
      rw [hplaces, openedAt_length, List.reverse_append, List.reverse_singleton,
        List.singleton_append, openBraces, Token.opensBrace, Token.closesBrace]
      by_cases htemplate : t.kind = .template
      · have hpunctuator := fun a => t.isPunctuator_eq_false (by rw [htemplate]; decide) a
        rw [hpunctuator, hpunctuator, Bool.false_or, Bool.false_or, if_neg Bool.false_ne_true,
          if_neg Bool.false_ne_true, if_pos htemplate]
        simp only [Token.opensSubstitution, Token.closesSubstitution, htemplate, beq_self_eq_true,
          Bool.true_and, beq_iff_eq]
        split <;> simp [*]
      · have hpiece : t.opensSubstitution = false ∧ t.closesSubstitution = false := by
          simp [Token.opensSubstitution, Token.closesSubstitution, htemplate]
        rw [hpiece.1, hpiece.2, Bool.or_false, Bool.or_false, if_neg Bool.false_ne_true,
          if_neg htemplate]
        cases hopening : t.isPunctuator openBrace with
        | true =>
            have hclosing : t.isPunctuator closeBrace = false := Token.isPunctuator_eq hopening
            simp [hclosing]
        | false => simp

/-- A closing brace ends a substitution exactly when the nearest of the open places is one. -/
theorem inSubstitution_ofTokens (v : Vocabulary) (tokens : List Token) :
    (ofTokens v tokens).inSubstitution =
      (openPlaces tokens).head?.any fun i => tokens[i]?.any Token.opensSubstitution := by
  rw [ofTokens_eq_recompute, inSubstitution]
  show ((openBraces v tokens.reverse).head? == some .substitution) = _
  rw [openBraces_eq, List.head?_map]
  cases (openPlaces tokens).head? with
  | none => rfl
  | some i =>
      rw [Option.map_some, Option.any_some, Bool.eq_iff_iff, beq_iff_eq, Option.some.injEq]
      exact openedAt_eq_substitution_iff

end Context

/-- A piece of a template has both its marks, and it begins with a brace only behind a substitution
that it closes. -/
theorem Lexeme.marks_of_read {ctx : Context} {c : Char} {rest : List Char} {l : Lexeme}
    (h : read v ctx c rest = .ok l) (hkind : l.kind = .template) :
    l.text.head? = some c ∧ (c = Literal.templateQuote ∨ c = '}' ∧ ctx.inSubstitution) ∧
      (l.text.getLast? = some Literal.templateQuote ∨ Literal.substitutionMark <:+ l.text) := by
  have hform : form v ctx c rest.head? = .template :=
    form_of_read h fun g hg => by rw [hkind] at hg; revert hg; cases g <;> decide
  have hbegins := begins_of_form hform
  rw [read_eq_readForm, hform, readForm, ofMatcher_eq_ok_iff] at h
  obtain ⟨hfirst, hlast⟩ := Literal.ends_of_template h.2
  exact ⟨hfirst, hbegins, hlast⟩

/-- A closing token of a text ends a substitution or a brace, whichever was opened last. -/
theorem inSubstitution_of_tokenize (h : tokenize v text = .ok (front ++ t :: back))
    (ht : t.closesBrace = true) :
    (Context.ofTokens v front).inSubstitution = t.closesSubstitution := by
  obtain ⟨c, rest, l, start, hread, rfl⟩ := exists_read_of_tokenize h
  rw [Token.closesBrace, Bool.or_eq_true] at ht
  rcases ht with hpunctuator | hpiece
  · rw [Token.isPunctuator, Bool.and_eq_true, beq_iff_eq, beq_iff_eq, Lexeme.token_kind,
      Lexeme.token_text] at hpunctuator
    obtain ⟨hkind, htext⟩ := hpunctuator
    have htext : l.text = ['}'] := String.ofList_injective htext
    have happend := (Lexeme.reads_of_read hread).1
    rw [htext, List.singleton_append, List.cons.injEq] at happend
    obtain ⟨rfl, rfl⟩ := happend
    rw [Token.closesSubstitution, Lexeme.token_kind, hkind]
    show _ = false
    -- A brace that ends a substitution would have been read as a piece of a template.
    rw [← Bool.not_eq_true]
    intro hinside
    rw [Lexeme.read_closeBrace, if_pos hinside, Lexeme.readForm, Lexeme.ofMatcher_eq_ok_iff,
      hkind] at hread
    cases hread.1
  · rw [hpiece]
    rw [Token.closesSubstitution, Bool.and_eq_true, beq_iff_eq, beq_iff_eq, Lexeme.token_kind]
      at hpiece
    obtain ⟨hfirst, hbegins, _⟩ := Lexeme.marks_of_read hread hpiece.1
    have hbrace := hpiece.2
    rw [← Token.chars, Lexeme.token_chars, hfirst, Option.some.injEq] at hbrace
    subst hbrace
    exact (hbegins.resolve_left (by decide)).2

/-- A token that is added closes the nearest of the open places, if it closes anything. -/
theorem bracePartner_length (front : List Token) (t : Token) (back : List Token) :
    bracePartner (front ++ t :: back) front.length =
      if t.closesBrace then (openPlaces front).head? else none := by
  rw [bracePartner, ← List.singleton_append, ← List.append_assoc,
    Pairing.partner_append (by simp), Pairing.partner_length]
  rfl

/-- What a closing token of a text closes was opened for the same purpose. -/
theorem opensSubstitution_of_bracePartner (h : tokenize v text = .ok tokens)
    (hpartner : bracePartner tokens j = some i) :
    tokens[i]?.any Token.opensSubstitution = tokens[j]?.any Token.closesSubstitution := by
  obtain ⟨hij, _, hcloses⟩ := Pairing.opens_of_partner hpartner
  obtain ⟨front, t, back, rfl, rfl, ht⟩ := Pairing.split_of_any hcloses
  rw [bracePartner_length, if_pos ht] at hpartner
  have hinside := inSubstitution_of_tokenize h ht
  rw [Context.inSubstitution_ofTokens, hpartner, Option.any_some] at hinside
  rw [List.getElem?_append_left hij, hinside, List.getElem?_append_right (Nat.le_refl _),
    Nat.sub_self]
  rfl

/-- A token opens a substitution, a brace, or nothing. -/
theorem Token.isPunctuator_openBrace (t : Token) (h : t.opensBrace = true) :
    t.isPunctuator openBrace = !t.opensSubstitution := by
  rw [opensBrace] at h
  cases hpiece : t.opensSubstitution with
  | false => rwa [hpiece, Bool.or_false] at h
  | true =>
      rw [opensSubstitution, Bool.and_eq_true, beq_iff_eq] at hpiece
      exact t.isPunctuator_eq_false (by rw [hpiece.1]; decide) _

/-- A token closes a substitution, a brace, or nothing. -/
theorem Token.isPunctuator_closeBrace (t : Token) (h : t.closesBrace = true) :
    t.isPunctuator closeBrace = !t.closesSubstitution := by
  rw [closesBrace] at h
  cases hpiece : t.closesSubstitution with
  | false => rwa [hpiece, Bool.or_false] at h
  | true =>
      rw [closesSubstitution, Bool.and_eq_true, beq_iff_eq] at hpiece
      exact t.isPunctuator_eq_false (by rw [hpiece.1]; decide) _

/-- In the tokens of a text, braces are in pairs as if there were no substitutions. -/
theorem bracePartner_eq_of_brace (h : tokenize v text = .ok tokens)
    (hj : tokens[j]?.any (·.isPunctuator closeBrace) = true) :
    Pairing.partner (·.isPunctuator openBrace) (·.isPunctuator closeBrace) tokens j =
      bracePartner tokens j := by
  refine Pairing.partner_eq_of_kind (fun t ht => ?_) (fun t ht => ?_) (fun i j hpartner => ?_) hj
  · rw [Token.opensBrace, ht, Bool.true_or]
  · rw [Token.closesBrace, ht, Bool.true_or]
  · have halike := opensSubstitution_of_bracePartner h hpartner
    obtain ⟨_, hi, hj⟩ := Pairing.opens_of_partner hpartner
    obtain ⟨t, ht, hopens⟩ := Option.any_eq_true _ _ |>.mp hi
    obtain ⟨u, hu, hcloses⟩ := Option.any_eq_true _ _ |>.mp hj
    rw [ht, hu, Option.any_some, Option.any_some] at halike ⊢
    rw [t.isPunctuator_openBrace hopens, u.isPunctuator_closeBrace hcloses, halike]

/-- And substitutions are in pairs as if there were no braces. -/
theorem bracePartner_eq_of_substitution (h : tokenize v text = .ok tokens)
    (hj : tokens[j]?.any Token.closesSubstitution = true) :
    Pairing.partner Token.opensSubstitution Token.closesSubstitution tokens j =
      bracePartner tokens j := by
  refine Pairing.partner_eq_of_kind (fun t ht => ?_) (fun t ht => ?_) (fun i j hpartner => ?_) hj
  · rw [Token.opensBrace, ht, Bool.or_true]
  · rw [Token.closesBrace, ht, Bool.or_true]
  · exact opensSubstitution_of_bracePartner h hpartner

/-- A piece of a template behind a substitution closes one. -/
theorem exists_bracePartner (h : tokenize v text = .ok tokens)
    (hj : tokens[j]?.any Token.closesSubstitution = true) :
    ∃ i, i < j ∧ bracePartner tokens j = some i := by
  obtain ⟨front, t, back, rfl, rfl, ht⟩ := Pairing.split_of_any hj
  have hcloses : t.closesBrace = true := by rw [Token.closesBrace, ht, Bool.or_true]
  have hinside := inSubstitution_of_tokenize h hcloses
  rw [ht, Context.inSubstitution_ofTokens, Option.any_eq_true] at hinside
  obtain ⟨i, hi, _⟩ := hinside
  have hpartner : bracePartner (front ++ t :: back) front.length = some i := by
    rw [bracePartner_length, if_pos hcloses, hi]
  exact ⟨i, (Pairing.opens_of_partner hpartner).1, hpartner⟩

/-- The tokens of a text are nested. -/
theorem nested_of_ok (h : tokenize v text = .ok tokens) : Nested tokens where
  marks := by
    intro t ht hkind
    obtain ⟨front, back, rfl⟩ := List.append_of_mem ht
    obtain ⟨c, rest, l, start, hread, rfl⟩ := exists_read_of_tokenize h
    obtain ⟨hfirst, hbegins, hlast⟩ := Lexeme.marks_of_read hread hkind
    rw [Token.opensSubstitution, Token.closesSubstitution, hkind, beq_self_eq_true, Bool.true_and,
      Bool.true_and, List.isSuffixOf_iff_suffix, beq_iff_eq, ← Token.chars, Lexeme.token_chars,
      hfirst]
    refine ⟨?_, hlast⟩
    rcases hbegins with rfl | ⟨rfl, _⟩
    · exact Or.inl rfl
    · exact Or.inr rfl
  closing j hj := exists_bracePartner h hj
  alike i j hpartner := opensSubstitution_of_bracePartner h hpartner
  inside i j k hpartner hik hkj := by
    refine ⟨Pairing.exists_partner_of_between hpartner hik hkj, fun hcloses => ?_⟩
    obtain ⟨m, him, hm⟩ := Pairing.partner_of_between hpartner hik hkj hcloses
    exact ⟨m, him, (Pairing.opens_of_partner hm).1, hm⟩

/-- A substitution is still open behind the tokens exactly when one of them is never closed. -/
theorem substitution_mem_braces_iff (v : Vocabulary) (tokens : List Token) :
    .substitution ∈ (Context.ofTokens v tokens).braces ↔
      ∃ i, tokens[i]?.any Token.opensSubstitution = true ∧ ∀ j, bracePartner tokens j ≠ some i := by
  rw [Context.ofTokens_eq_recompute]
  show .substitution ∈ Context.openBraces v tokens.reverse ↔ _
  rw [Context.openBraces_eq, List.mem_map]
  constructor
  · intro ⟨i, hi, hopened⟩
    exact ⟨i, Context.openedAt_eq_substitution_iff.mp hopened, (Pairing.mem_unmatched_iff.mp hi).2⟩
  · intro ⟨i, hopens, hfree⟩
    refine ⟨i, Pairing.mem_unmatched_iff.mpr ⟨?_, hfree⟩,
      Context.openedAt_eq_substitution_iff.mpr hopens⟩
    obtain ⟨front, t, back, rfl, rfl, ht⟩ := Pairing.split_of_any hopens
    rw [List.getElem?_append_right (Nat.le_refl _), Nat.sub_self]
    show t.opensBrace = true
    rw [Token.opensBrace, ht, Bool.or_true]

/-- The pieces of templates and the braces in the tokens of a text are nested, and every
substitution is closed by a later piece of a template exactly when the lexer has none open behind
the last token. The reading does not look for one there. -/
theorem nested_of_tokenize (h : tokenize v text = .ok tokens) : Nested tokens ∧
    ((∀ i, tokens[i]?.any Token.opensSubstitution = true →
        ∃ j, i < j ∧ bracePartner tokens j = some i ∧
          tokens[j]?.any Token.closesSubstitution = true) ↔
      .substitution ∉ (Context.ofTokens v tokens).braces) := by
  refine ⟨nested_of_ok h, ?_⟩
  rw [substitution_mem_braces_iff]
  constructor
  · intro hall ⟨i, hopens, hfree⟩
    obtain ⟨j, _, hpartner, _⟩ := hall i hopens
    exact hfree j hpartner
  · intro hnone i hopens
    by_contra hfree
    refine hnone ⟨i, hopens, fun j hpartner => hfree ⟨j, ?_, hpartner, ?_⟩⟩
    · exact (Pairing.opens_of_partner hpartner).1
    · rw [← opensSubstitution_of_bracePartner h hpartner, hopens]

/-- A template in a brace in a substitution is nested and closed. -/
theorem nested_of_tokenize_inner :
    let v : Vocabulary := ⟨"plain", ⟨[], List.Pairwise.nil⟩, List.Pairwise.nil⟩
    let text := "\x60$\x7b\x7b\x60$\x7ba\x7d\x60\x7d\x7d\x60"
    let tokens : List Token := [⟨.template, "\x60$\x7b", 0⟩, ⟨.punctuator, "\x7b", 3⟩,
      ⟨.template, "\x60$\x7b", 4⟩, ⟨.identifier, "a", 7⟩, ⟨.template, "\x7d\x60", 8⟩,
      ⟨.punctuator, "\x7d", 10⟩, ⟨.template, "\x7d\x60", 11⟩]
    tokenize v text = .ok tokens ∧ Nested tokens ∧
      ∃ j, bracePartner tokens j = some 0 ∧ tokens[j]?.any Token.closesSubstitution = true := by
  intro v text tokens
  have h : tokenize v text = .ok tokens := by decide +kernel
  obtain ⟨hnested, hclosed⟩ := nested_of_tokenize h
  have hnone : .substitution ∉ (Context.ofTokens v tokens).braces := by decide +kernel
  obtain ⟨j, _, hpartner, hcloses⟩ := hclosed.mpr hnone 0 rfl
  exact ⟨h, hnested, j, hpartner, hcloses⟩

/-- A text that ends inside a substitution is split into tokens, and nothing closes it. -/
theorem substitution_open_at_end :
    ¬ ∀ (v : Vocabulary) (text : String) (tokens : List Token), tokenize v text = .ok tokens →
      ∀ i, tokens[i]?.any Token.opensSubstitution = true →
        ∃ j, bracePartner tokens j = some i := by
  intro hall
  let v : Vocabulary := ⟨"plain", ⟨[], List.Pairwise.nil⟩, List.Pairwise.nil⟩
  let tokens : List Token := [⟨.template, "\x60$\x7b", 0⟩, ⟨.identifier, "x", 3⟩]
  have h : tokenize v "\x60$\x7bx" = .ok tokens := by decide +kernel
  obtain ⟨j, hpartner⟩ := hall v _ tokens h 0 rfl
  have hcloses := (Pairing.opens_of_partner hpartner).2.2
  -- Neither of the two tokens closes anything.
  match j with
  | 0 => revert hcloses; decide +kernel
  | 1 => revert hcloses; decide +kernel
  | j + 2 => cases hcloses

end Respell
