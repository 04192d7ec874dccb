import Mathlib.Data.List.Basic
import Respell.Proofs.Token.Form
import Respell.Proofs.Token.Literal
import Respell.Proofs.Token.Punctuator
import Respell.Proofs.Token.Replay
import Respell.Proofs.Token.Tiling

/-!
# Keywords are whole words

A token is a keyword exactly when it is a name, is a spelling of the vocabulary, and names no
property: `Lexeme.kind_eq_keyword_iff`. In its text a keyword is a whole word, `IsWholeWord`, and no
other token and no comment has a part in it, `StandsApart`. No word goes on with the text behind it;
that the character before it is no part of a name rests on the last characters of all the other
tokens, `Lexeme.isPart_last_of_read`, and of blanks and comments, `Trivia.IsGap.isPart_last`.
-/

namespace Respell

open Text Text.Matcher

/-- The token stands in the text behind the tokens `front` as a whole word: no word goes on behind
it, and the character before it is no part of a name, unless a numeral ends there. -/
def IsWholeWord (text : List Char) (front : List Token) (t : Token) : Prop :=
  ∃ before after, text = before ++ (t.chars ++ after) ∧ t.start = byteLength before ∧
    Word.continues after = false ∧
    ∀ c ∈ before.getLast?, Identifier.isPart c = true →
      ∃ u ∈ front.getLast?, u.kind = .numeric ∧ u.stop = t.start

/-- The token shares no part of the text with the tokens before and behind it, nor with any of the
gaps between tokens, in which the comments are. -/
structure StandsApart (text : List Char) (front : List Token) (t : Token) (back : List Token) :
    Prop where
  before : ∀ u ∈ front, u.stop ≤ t.start
  behind : ∀ u ∈ back, t.stop ≤ u.start
  gaps : ∀ xs ys, front ++ t :: back = xs ++ ys → t.stop ≤ stopOf xs ∨ startOf text ys ≤ t.start

namespace Trivia

/-- A blank or comment before a name does not end with a part of one. -/
theorem IsTrivium.isPart_last {t after : List Char} (h : IsTrivium t after)
    (hafter : after.head?.any Identifier.isStart = true) :
    t.getLast?.any Identifier.isPart = false := by
  cases h with
  | @blank c _ hblank =>
      refine Identifier.isPart_eq_false_of_isBlank ?_
      rw [isBlank, Bool.or_eq_true, beq_iff_eq]
      exact hblank
  | lineComment _ _ hend =>
      -- Such a comment goes up to the end of its line, so no name follows.
      obtain ⟨d, hd, hstart⟩ := Option.any_eq_true _ _ |>.mp hafter
      have hblank := Identifier.isBlank_of_isLineEnd (hend d hd)
      rw [Identifier.isBlank_eq_false_of_isStart hstart] at hblank
      cases hblank
  | @blockComment body _ hbody =>
      obtain ⟨inside, rfl⟩ := hbody.1
      rw [closingMark, List.getLast?_append, List.getLast?_append]
      rfl

/-- A gap before a name does not end with a part of one. -/
theorem IsGap.isPart_last {gap after : List Char} (h : IsGap gap after)
    (hafter : after.head?.any Identifier.isStart = true) :
    gap.getLast?.any Identifier.isPart = false := by
  induction h with
  | nil => rfl
  | @cons t gap after ht _ ih =>
      cases gap with
      | nil =>
          rw [List.append_nil]
          exact ht.isPart_last hafter
      | cons c gap =>
          rw [List.getLast?_append_of_ne_nil _ (List.cons_ne_nil _ _)]
          exact ih hafter

/-- Nor does a first line that is no part of the program, with the gap behind it. -/
theorem IsFirstLine.isPart_last {line gap after : List Char} (h : IsFirstLine line (gap ++ after))
    (hgap : IsGap gap after) (hafter : after.head?.any Identifier.isStart = true) :
    (line ++ gap).getLast?.any Identifier.isPart = false := by
  cases gap with
  | nil =>
      cases h with
      | absent => exact hgap.isPart_last hafter
      | shebang _ hend =>
          obtain ⟨d, hd, hstart⟩ := Option.any_eq_true _ _ |>.mp hafter
          have hblank := Identifier.isBlank_of_isLineEnd (hend d hd)
          rw [Identifier.isBlank_eq_false_of_isStart hstart] at hblank
          cases hblank
  | cons c gap =>
      rw [List.getLast?_append_of_ne_nil _ (List.cons_ne_nil _ _)]
      exact hgap.isPart_last hafter

end Trivia

namespace Punctuator

/-- No punctuator ends with a part of a name. -/
theorem isPart_last_of_mem_all : ∀ p ∈ all, p.getLast?.any Identifier.isPart = false := by
  decide +kernel

/-- What is taken as a punctuator does not end with a part of a name. -/
theorem isPart_last_of_punctuator {s t rest : List Char} (h : punctuator s = some (t, rest)) :
    t.getLast?.any Identifier.isPart = false := by
  obtain ⟨p, hfind, rfl, _⟩ := punctuator_eq_some_iff.mp h
  rw [taken]
  split
  · exact isPart_last_of_mem_all ['?'] (by decide)
  · exact isPart_last_of_mem_all p (List.mem_of_find?_eq_some hfind)

end Punctuator

namespace Lexeme

variable {v : Vocabulary} {ctx : Context} {c : Char} {rest : List Char} {l : Lexeme}

/-- A word of characters of a name has no escape. -/
theorem escaped_eq_false_of_isName {s : List Char} {w : Word.Scanned} (h : Word.scan s = .ok w)
    (hname : Identifier.isName w.text = true) : w.escaped = false := by
  cases hescaped : w.escaped with
  | false => rfl
  | true =>
      have hbackslash := Word.backslash_mem_of_scanFrom h hescaped (fun hfalse => by cases hfalse)
      have hpart := Identifier.isPart_of_isName hname _ hbackslash
      revert hpart
      decide

/-- A lexeme is a keyword exactly when it is a name, is a spelling, and names no property. -/
theorem kind_eq_keyword_iff (h : read v ctx c rest = .ok l) :
    l.kind = .keyword ↔ Identifier.isName l.text = true ∧
      v.isSpelling (String.ofList l.text) = true ∧ ctx.namesProperty = false := by
  constructor
  · intro hkind
    obtain ⟨hname, hproperty, hspelling, _⟩ := isName_of_read_keyword h hkind
    exact ⟨hname, hspelling, hproperty⟩
  · intro ⟨hname, hspelling, hproperty⟩
    -- Only a word begins as a name does, and a name is a word without an escape.
    obtain ⟨d, t, ht, hstart⟩ := Identifier.exists_cons_of_isName hname
    have happend := (reads_of_read h).1
    rw [ht, List.cons_append, List.cons.injEq] at happend
    obtain ⟨rfl, _⟩ := happend
    rw [read_eq_readForm, form_of_isStart v ctx _ hstart, readForm] at h
    obtain ⟨escaped, hscan, hkind⟩ := word_eq_ok_iff.mp h
    have hescaped : escaped = false := escaped_eq_false_of_isName hscan hname
    rw [hkind, wordKind_eq_keyword_iff]
    exact ⟨hescaped, hproperty, hspelling⟩

/-- Where a name follows right behind a token, the token does not end with a part of a name, unless
it is a numeral. -/
theorem isPart_last_of_read (h : read v ctx c rest = .ok l) (hkind : l.kind ≠ .numeric)
    (hrest : l.rest.head?.any Identifier.isStart = true) :
    l.text.getLast?.any Identifier.isPart = false := by
  have hgoesOn : l.rest.head?.any Identifier.isPart = true := by
    obtain ⟨d, hd, hstart⟩ := Option.any_eq_true _ _ |>.mp hrest
    exact Option.any_eq_true _ _ |>.mpr ⟨d, hd, Identifier.isPart_of_isStart hstart⟩
  rw [read_eq_readForm] at h
  cases hform : form v ctx c rest.head? with
  | string =>
      have hbegins := begins_of_form hform
      rw [hform, readForm, ofMatcher_eq_ok_iff] at h
      rw [Literal.getLast?_of_string h.2]
      rcases hbegins with rfl | rfl
      · rfl
      · rfl
  | template =>
      rw [hform, readForm, ofMatcher_eq_ok_iff] at h
      rcases (Literal.ends_of_template h.2).2 with hlast | hmark
      · rw [hlast]
        rfl
      · obtain ⟨inside, hinside⟩ := hmark
        rw [← hinside, Literal.substitutionMark, List.getLast?_append]
        rfl
  | privateName | regex =>
      rw [hform] at h
      have hstop := any_isPart_of_readForm h (by simp)
      rw [hgoesOn] at hstop
      cases hstop
  | word =>
      rw [hform] at h
      have hstop := continues_of_word h
      rw [Word.continues, hgoesOn] at hstop
      cases hstop
  | numeral =>
      rw [hform, readForm, ofMatcher_eq_ok_iff] at h
      exact absurd h.1 hkind
  | punctuator =>
      rw [hform, readForm, ofMatcher_eq_ok_iff] at h
      exact Punctuator.isPart_last_of_punctuator h.2

end Lexeme

/-- Up to a name that follows in a state which the reading reaches, the text does not end with a
part of a name, unless the last token is a numeral that ends there. -/
theorem LexerState.Reaches.isPart_last {v : Vocabulary} {text gap after : List Char}
    {s : LexerState} (h : Reaches v text s) (hskip : Trivia.skip s.rest = .ok (gap, after))
    (hafter : after.head?.any Identifier.isStart = true) :
    ∃ before, text = before ++ after ∧ s.offset + byteLength gap = byteLength before ∧
      (before.getLast?.any Identifier.isPart = true →
        ∃ u ∈ s.tokens.getLast?, u.kind = .numeric ∧ u.stop = s.offset + byteLength gap) := by
  obtain ⟨hrest, hgap, _⟩ := Trivia.skip_eq_ok_iff.mp hskip
  cases h with
  | initial =>
      obtain ⟨line, hoffset, htext, hline⟩ := initial_eq text
      rw [hrest] at htext hline
      refine ⟨line ++ gap, by rw [List.append_assoc, ← htext], ?_, fun hpart => ?_⟩
      · rw [hoffset, byteLength_append]
      · rw [hline.isPart_last hgap hafter] at hpart
        cases hpart
  | @next s _ hs hnext =>
      obtain ⟨before, htext, hoffset⟩ := hs.text_eq
      obtain ⟨blanks, d, more, l, hblanks, hread, rfl⟩ := next_eq_some_iff.mp hnext
      have hreads := Lexeme.reads_of_read hread
      have hstop : (l.token (s.offset + byteLength blanks)).stop =
          byteLength (before ++ (blanks ++ l.text)) := by
        rw [Token.stop_eq, Lexeme.token_chars, Lexeme.token_start, hoffset]
        simp only [byteLength_append]
        omega
      have hrest : l.rest = gap ++ after := hrest
      refine ⟨before ++ (blanks ++ l.text) ++ gap, ?_, ?_, fun hpart => ?_⟩
      · rw [htext, ← Trivia.append_of_skip hblanks, ← hreads.1, hrest]
        simp only [List.append_assoc]
      · show (l.token _).stop + byteLength gap = _
        rw [hstop, byteLength_append _ gap]
      · cases gap with
        | nil =>
            -- Right behind a token only a numeral leaves a part of a name before the next one.
            rw [List.append_nil, ← List.append_assoc,
              List.getLast?_append_of_ne_nil _ hreads.2] at hpart
            refine ⟨l.token (s.offset + byteLength blanks), ?_, ?_, rfl⟩
            · rw [tokens_accept, List.getLast?_concat]
              rfl
            · by_contra hkind
              rw [Lexeme.isPart_last_of_read hread hkind (hrest ▸ hafter)] at hpart
              cases hpart
        | cons e gap =>
            rw [List.getLast?_append_of_ne_nil _ (List.cons_ne_nil _ _),
              hgap.isPart_last hafter] at hpart
            cases hpart

section

variable {text : List Char} {tokens front back : List Token} {t u : Token}

/-- No token of a list that is in order ends behind the last one. -/
theorem stop_le_stopOf (h : tokens.Pairwise fun t u => t.stop ≤ u.start) (ht : t ∈ tokens) :
    t.stop ≤ stopOf tokens := by
  rcases List.eq_nil_or_concat tokens with rfl | ⟨xs, last, rfl⟩
  · cases ht
  · rw [List.concat_eq_append] at h ht ⊢
    rw [stopOf, List.getLast?_concat, Option.map_some, Option.getD_some]
    rcases List.mem_append.mp ht with ht | ht
    · have hle := (List.pairwise_append.mp h).2.2 t ht last List.mem_cons_self
      exact Nat.le_trans hle (Nat.le_add_right _ _)
    · rw [List.mem_singleton.mp ht]

/-- A token of a list that is in order stands apart from the others. -/
theorem standsApart_of_pairwise (text : List Char)
    (h : (front ++ t :: back).Pairwise fun t u => t.stop ≤ u.start) :
    StandsApart text front t back := by
  obtain ⟨_, hback, hfront⟩ := List.pairwise_append.mp h
  refine ⟨fun u hu => hfront u hu t List.mem_cons_self, (List.pairwise_cons.mp hback).1, ?_⟩
  intro xs ys hsplit
  rw [hsplit] at h
  rcases List.append_eq_append_iff.mp hsplit with ⟨zs, rfl, hzs⟩ | ⟨zs, rfl, rfl⟩
  · cases zs with
    | nil =>
        rw [List.nil_append] at hzs
        subst hzs
        exact Or.inr (Nat.le_refl _)
    | cons z zs =>
        obtain ⟨rfl, _⟩ := List.cons.inj hzs
        left
        exact stop_le_stopOf (List.pairwise_append.mp h).1
          (List.mem_append_right _ List.mem_cons_self)
  · right
    cases zs with
    | nil => exact Nat.le_refl _
    | cons z zs =>
        have hle := hfront z (List.mem_append_right _ List.mem_cons_self) t List.mem_cons_self
        exact Nat.le_trans (Nat.le_add_right _ _) hle

end

/-- The word behind these tokens names a property when the last of them is one of two points. -/
theorem namesProperty_eq_false_iff {v : Vocabulary} {front : List Token} :
    (Context.ofTokens v front).namesProperty = false ↔
      ∀ u ∈ front.getLast?, u.isPunctuator "." = false ∧ u.isPunctuator "?." = false := by
  rw [Context.ofTokens_eq_recompute, Context.namesProperty, Bool.or_eq_false_iff]
  show front.reverse.head?.any _ = false ∧ front.reverse.head?.any _ = false ↔ _
  rw [List.head?_reverse]
  cases front.getLast? with
  | none => simp
  | some u => simp

/-- A token of a text is a keyword exactly when it is a name, is a spelling of the vocabulary, and
does not stand behind one of the two points of a property; and a keyword stands in the text as a
whole word, apart from all other tokens and all comments. -/
theorem keyword_iff_of_tokenize {v : Vocabulary} {text : String} {front back : List Token}
    {t : Token} (h : tokenize v text = .ok (front ++ t :: back)) :
    (t.kind = .keyword ↔ Identifier.isName t.chars = true ∧ v.isSpelling t.text = true ∧
      ∀ u ∈ front.getLast?, u.isPunctuator "." = false ∧ u.isPunctuator "?." = false) ∧
    (t.kind = .keyword → IsWholeWord text.toList front t) ∧
    StandsApart text.toList front t back := by
  obtain ⟨pieces, last, hyields, htokens⟩ := tokenize_eq_ok_iff.mp h
  have hordered := hyields.placed.pairwise.2
  rw [← htokens] at hordered
  refine ⟨?_, ?_, standsApart_of_pairwise _ hordered⟩
  · obtain ⟨c, rest, l, start, hread, rfl⟩ := exists_read_of_tokenize h
    rw [Lexeme.token_kind, Lexeme.token_chars, Lexeme.token_text,
      ← namesProperty_eq_false_iff (v := v)]
    exact Lexeme.kind_eq_keyword_iff hread
  · obtain ⟨s, pieces, last, hs, rfl, hyields, hback⟩ := reaches_of_tokenize h
    intro hkind
    cases hyields with
    | done => cases hback
    | @token _ gap rest _ c l _ hskip hread _ =>
        obtain ⟨rfl, _⟩ := List.cons.inj hback
        obtain ⟨hname, _, _, hcontinues⟩ := Lexeme.isName_of_read_keyword hread hkind
        have happend := (Lexeme.reads_of_read hread).1
        obtain ⟨d, more, htext, hstart⟩ := Identifier.exists_cons_of_isName hname
        have hafter : (c :: rest).head?.any Identifier.isStart = true := by
          rw [← happend, htext]
          exact hstart
        obtain ⟨before, hbefore, hoffset, hlast⟩ := hs.isPart_last hskip hafter
        refine ⟨before, l.rest, ?_, hoffset, hcontinues, fun e he hpart => ?_⟩
        · rw [Lexeme.token_chars, happend, hbefore]
        · exact hlast (Option.any_eq_true _ _ |>.mpr ⟨e, he, hpart⟩)

/-- Behind a numeral that it touches the spelling is a keyword; in a comment, a template, an escaped
word and behind a point it is none. -/
theorem keyword_iff_of_tokenize_touching :
    let v : Vocabulary := ⟨"plain", ⟨[("if", "if")], List.pairwise_singleton _ _⟩,
      List.pairwise_singleton _ _⟩
    let text := "1if/*if*/\x60if\x60 i\\u0066 a.if"
    let t : Token := ⟨.keyword, "if", 1⟩
    let back : List Token := [⟨.template, "\x60if\x60", 9⟩, ⟨.identifier, "i\\u0066", 14⟩,
      ⟨.identifier, "a", 22⟩, ⟨.punctuator, ".", 23⟩, ⟨.identifier, "if", 24⟩]
    tokenize v text = .ok (⟨.numeric, "1", 0⟩ :: t :: back) ∧
      IsWholeWord text.toList [⟨.numeric, "1", 0⟩] t ∧
      StandsApart text.toList [⟨.numeric, "1", 0⟩] t back := by
  intro v text t back
  have h : tokenize v text = .ok ([⟨.numeric, "1", 0⟩] ++ t :: back) := by decide +kernel
  obtain ⟨_, hword, hapart⟩ := keyword_iff_of_tokenize h
  exact ⟨h, hword rfl, hapart⟩

end Respell
