import Mathlib.Tactic.ByContra
import Respell.Proofs.Token.Context
import Respell.Proofs.Token.Form
import Respell.Proofs.Token.Numeral
import Respell.Proofs.Token.Punctuator

/-!
# Reading a token again

A token that was read in one text is read again in another one, under another vocabulary, when the
contexts have the same structure and the texts behind the token are alike up to a word. `read_again`
states this for every token but a keyword, whose new spelling `read_spelling` is about. What a token
needs of the text behind it depends on its form, and `EndsBefore` names it. Only for a numeral it
does not follow from the likeness of the texts: a new spelling may lengthen it. The gaps and the
first line are the same before texts that are alike, which `skip_again` and `initial_again` state.
-/

namespace Respell

open Text Text.Matcher

namespace Trivia

open Literal

variable {gap line s other : List Char}

/-- No character that begins a name begins a comment. -/
theorem Stops.of_alike (h : Stops s) (halike : Alike s other) : Stops other := by
  obtain ⟨hblank, hline, hblock⟩ := h
  rw [beginsLineComment, halike.isPrefixOf rfl,
    halike.isPrefixOf rfl] at hline
  rw [beginsBlockComment, halike.isPrefixOf rfl] at hblock
  rw [halike.any_head fun _ => Identifier.isBlank_eq_false_of_isStart] at hblank
  exact ⟨hblank, hline, hblock⟩

/-- A gap depends on the text behind it only by whether a line ends there. -/
theorem IsGap.congr (h : IsGap gap s)
    (hends : (∀ c ∈ s.head?, isLineEnd c = true) → ∀ c ∈ other.head?, isLineEnd c = true) :
    IsGap gap other := by
  induction h with
  | nil => exact .nil
  | @cons t gap s ht _ ih =>
      refine .cons ?_ (ih hends)
      cases ht with
      | blank hblank => exact .blank hblank
      | blockComment hbody => exact .blockComment hbody
      | @lineComment mark body _ hmark hbody hend =>
          refine .lineComment hmark hbody ?_
          cases gap with
          | cons c gap => exact hend
          | nil => exact hends hend

/-- A gap does not depend on the word behind it. -/
theorem IsGap.of_alike (h : IsGap gap s) (hstops : Stops s) (halike : Alike s other) :
    IsGap gap other := by
  refine h.congr fun hend => ?_
  -- Where a gap stops the line does not end, so the text does.
  cases s with
  | nil =>
      rw [halike.eq_nil_iff.mp rfl]
      exact fun c hc => absurd hc (Option.not_mem_none c)
  | cons c s =>
      have hblank := Identifier.isBlank_of_isLineEnd (hend c rfl)
      have hnot := hstops.blank
      rw [List.head?_cons, Option.any_some, hblank] at hnot
      cases hnot

/-- The gap before a token is skipped again before a text that is alike. -/
theorem skip_again {c d : Char} {rest rest' : List Char} (h : skip s = .ok (gap, c :: rest))
    (halike : Alike (c :: rest) (d :: rest')) :
    skip (gap ++ d :: rest') = .ok (gap, d :: rest') := by
  obtain ⟨_, hgap, hstops⟩ := skip_eq_ok_iff.mp h
  exact skip_eq_ok_iff.mpr ⟨rfl, hgap.of_alike hstops halike, hstops.of_alike halike⟩

/-- The first line does not depend on the word behind it. -/
theorem IsFirstLine.of_alike (h : IsFirstLine line s) (halike : Alike s other) :
    IsFirstLine line other := by
  cases h with
  | absent hmark =>
      refine .absent fun hbegin => hmark ?_
      rw [← List.isPrefixOf_iff_prefix] at hbegin ⊢
      rw [halike.isPrefixOf rfl]
      exact hbegin
  | shebang hbody hend =>
      refine .shebang hbody ?_
      have hpart : s.head?.any Identifier.isPart = false := by
        cases s with
        | nil => rfl
        | cons c s =>
            exact Identifier.isPart_eq_false_of_isBlank
              (Identifier.isBlank_of_isLineEnd (hend c rfl))
      rw [← halike.head?_eq hpart]
      exact hend

/-- A gap begins with a blank or with the mark of a comment. -/
theorem IsGap.begins {c : Char} (h : IsGap (c :: gap) s) :
    isBlank c = true ∨ c = '/' ∨ c = '<' := by
  generalize hg : c :: gap = g at h
  cases h with
  | nil => cases hg
  | @cons t gap' _ ht =>
      cases ht with
      | @blank d _ hblank =>
          cases hg
          left
          rw [isBlank, Bool.or_eq_true, beq_iff_eq]
          exact hblank
      | lineComment hmark =>
          rcases hmark with rfl | rfl
          · cases hg
            exact Or.inr (Or.inl rfl)
          · cases hg
            exact Or.inr (Or.inr rfl)
      | blockComment =>
          cases hg
          exact Or.inr (Or.inl rfl)

/-- A gap begins with no character that begins a name. -/
theorem IsGap.isStart_eq_false {c : Char} (h : IsGap (c :: gap) s) :
    Identifier.isStart c = false := by
  rcases h.begins with hblank | rfl | rfl
  · cases hstart : Identifier.isStart c with
    | false => rfl
    | true =>
        rw [Identifier.isBlank_eq_false_of_isStart hstart] at hblank
        cases hblank
  · rfl
  · rfl

end Trivia

/-- The first state of a text that is alike behind the first line. -/
theorem LexerState.initial_again {line s other : List Char} (h : Trivia.IsFirstLine line s)
    (halike : Alike s other) :
    initial (line ++ other) = ⟨Context.initial, byteLength line, other⟩ := by
  rw [initial, Trivia.skipShebang_eq_iff.mpr ⟨rfl, h.of_alike halike⟩]

/-- A word that does not go on with a text does not with one that is alike. The backslash with
which an escape may begin has to be excluded. -/
theorem Word.continues_of_alike {s other : List Char} (h : continues s = false)
    (hescape : s.head? ≠ some '\\') (halike : Alike s other) : continues other = false := by
  have hpart := (Bool.or_eq_false_iff.mp h).1
  refine Bool.or_eq_false_iff.mpr ⟨halike.any_head_isPart ▸ hpart, ?_⟩
  by_contra hmark
  rw [Bool.not_eq_false, List.isPrefixOf_iff_prefix] at hmark
  obtain ⟨t, rfl⟩ := hmark
  exact hescape (halike.head?_eq hpart)

/-- The contexts answer alike what is asked of them when a token begins with the character `c`. -/
structure Context.AgreesAt (v w : Vocabulary) (ctx other : Context) (c : Char) : Prop where
  inSubstitution : c = '}' → ctx.inSubstitution = other.inSubstitution
  allowsRegex : c = '/' → ctx.allowsRegex v = other.allowsRegex w

/-- Contexts of the same structure answer alike. -/
theorem Context.Matches.agreesAt {v w : Vocabulary} {ctx other : Context}
    (h : ctx.Matches v w other) (c : Char) : ctx.AgreesAt v w other c :=
  ⟨fun _ => h.inSubstitution, fun _ => h.allowsRegex⟩

namespace Lexeme

variable {v w : Vocabulary} {ctx other : Context} {c : Char} {s rest after : List Char}
  {l : Lexeme} {f : Form}

/-- The lexeme, of the given form, ends before the text `after`. -/
def EndsBefore (l : Lexeme) (after : List Char) : Form → Prop
  | .string | .template => True
  | .privateName | .regex => after.head?.any Identifier.isPart = false
  | .word => Word.continues after = false
  | .numeral => Numeral.numeral (l.text ++ after) = some (l.text, after)
  | .punctuator => Punctuator.punctuator (l.text ++ after) = some (l.text, after)

/-- A lexeme is read in its form again where it ends. The kind of a word has to be looked up. -/
theorem readForm_again (h : readForm v ctx c (l.text ++ l.rest) f = .ok l)
    (hend : EndsBefore l after f)
    (hkind : f = .word → ∀ escaped, Word.scan (l.text ++ l.rest) = .ok ⟨l.text, escaped, l.rest⟩ →
      l.kind = wordKind w other escaped (String.ofList l.text)) :
    readForm w other c (l.text ++ after) f = .ok ⟨l.kind, l.text, after⟩ := by
  cases f with
  | string =>
      obtain ⟨hk, hm⟩ := ofMatcher_eq_ok_iff.mp h
      refine ofMatcher_eq_ok_iff.mpr ⟨hk, ?_⟩
      exact (selfDelimiting_exactly c).sequence (selfDelimiting_scan _ _) (splits_scan _ _) _ _ _ hm
  | template =>
      obtain ⟨hk, hm⟩ := ofMatcher_eq_ok_iff.mp h
      refine ofMatcher_eq_ok_iff.mpr ⟨hk, ?_⟩
      exact (selfDelimiting_exactly c).sequence (selfDelimiting_scan _ _) (splits_scan _ _) _ _ _ hm
  | privateName =>
      obtain ⟨hk, hm⟩ := ofMatcher_eq_ok_iff.mp h
      exact ofMatcher_eq_ok_iff.mpr ⟨hk, (selfDelimiting_one _).sequence_many hm hend⟩
  | word =>
      obtain ⟨escaped, hscan, _⟩ := word_eq_ok_iff.mp h
      exact word_eq_ok_iff.mpr ⟨escaped, Word.scan_append hscan hend, hkind rfl escaped hscan⟩
  | numeral => exact ofMatcher_eq_ok_iff.mpr ⟨(ofMatcher_eq_ok_iff.mp h).1, hend⟩
  | regex =>
      obtain ⟨hk, hm⟩ := ofMatcher_eq_ok_iff.mp h
      refine ofMatcher_eq_ok_iff.mpr ⟨hk, ?_⟩
      rw [Literal.regex, ← sequence_assoc] at hm ⊢
      exact ((selfDelimiting_exactly _).sequence (selfDelimiting_scan _ _)
        (splits_scan _ _)).sequence_many hm hend
  | punctuator => exact ofMatcher_eq_ok_iff.mpr ⟨(ofMatcher_eq_ok_iff.mp h).1, hend⟩

/-- Every lexeme but a numeral ends where the text behind it is alike. A backslash behind a word
must not be one with which an escape may begin. -/
theorem endsBefore_of_alike (h : readForm v ctx c (l.text ++ l.rest) f = .ok l)
    (halike : Alike l.rest after)
    (hescape : Word.continues l.rest = false → l.rest.head? ≠ some '\\')
    (hnumeral : f = .numeral → Numeral.numeral (l.text ++ after) = some (l.text, after)) :
    EndsBefore l after f := by
  cases f with
  | string | template => trivial
  | privateName | regex =>
      exact halike.any_head_isPart.symm.trans (any_isPart_of_readForm h (by simp))
  | word =>
      have hcontinues := continues_of_word h
      exact Word.continues_of_alike hcontinues (hescape hcontinues) halike
  | numeral => exact hnumeral rfl
  | punctuator => exact Punctuator.punctuator_congr halike (ofMatcher_eq_ok_iff.mp h).2

/-- A text that begins with a backslash has a token there only when an escape may begin. -/
theorem head?_eq_of_read_backslash (h : read v ctx '\\' rest = .ok l) : rest.head? = some 'u' := by
  by_contra hne
  have hform : form v ctx '\\' rest.head? = .punctuator := by
    have hstart : Identifier.isStart '\\' = false := rfl
    simp only [form, hstart, hne]
    rfl
  have hnone : Punctuator.punctuator ('\\' :: rest) = none := rfl
  rw [read_eq_readForm, hform, readForm, ofMatcher_eq_ok_iff, hnone] at h
  cases h.2

/-- No token is a backslash alone. -/
theorem text_ne_backslash (h : read v ctx c rest = .ok l) : l.text ≠ ['\\'] := by
  intro htext
  obtain ⟨happend, _⟩ := reads_of_read h
  rw [htext, List.singleton_append] at happend
  obtain ⟨rfl, rfl⟩ := List.cons.inj happend
  have hu := head?_eq_of_read_backslash h
  have hform : form v ctx '\\' l.rest.head? = .word := by
    have hstart : Identifier.isStart '\\' = false := rfl
    simp only [form, hstart, hu]
    rfl
  rw [read_eq_readForm, hform, readForm] at h
  obtain ⟨escaped, hscan, _⟩ := word_eq_ok_iff.mp h
  rw [htext, ← List.singleton_append] at hscan
  -- Read alone, the backslash is not a word either.
  have halone : Word.scan (['\\'] ++ []) = .ok ⟨['\\'], escaped, []⟩ := Word.scan_append hscan rfl
  rw [List.append_nil, Word.scan, Word.scanFrom_stop rfl] at halone
  cases halone

/-- The first character, what is known of the second, and the context decide the form. What is asked
of the second character and of the context is up to the first one. -/
theorem form_congr (hctx : ctx.AgreesAt v w other c) {next next' : Option Char}
    (hstart : c = '#' → next.any Identifier.isStart = next'.any Identifier.isStart)
    (hdigit : c = '.' → next.any Char.isDigit = next'.any Char.isDigit)
    (hescape : c = '\\' → (next = some 'u' ↔ next' = some 'u')) :
    form w other c next' = form v ctx c next := by
  have hhash : (c = '#' ∧ next'.any Identifier.isStart) = (c = '#' ∧ next.any Identifier.isStart) :=
    propext (and_congr_right fun hc => by rw [hstart hc])
  have hpoint : (c = '.' ∧ next'.any Char.isDigit) = (c = '.' ∧ next.any Char.isDigit) :=
    propext (and_congr_right fun hc => by rw [hdigit hc])
  have hu : (c = '\\' ∧ next' = some 'u') = (c = '\\' ∧ next = some 'u') :=
    propext (and_congr_right fun hc => (hescape hc).symm)
  have hbrace : (c = '}' ∧ other.inSubstitution) = (c = '}' ∧ ctx.inSubstitution) :=
    propext (and_congr_right fun hc => by rw [hctx.inSubstitution hc])
  have hslash : (c = '/' ∧ other.allowsRegex w) = (c = '/' ∧ ctx.allowsRegex v) :=
    propext (and_congr_right fun hc => by rw [hctx.allowsRegex hc])
  simp only [form, hbrace, hslash, hhash, hpoint, hu]

/-- A lexeme has the same form in another text when it has it alone, as its first character. -/
theorem form_behind (hctx : ctx.AgreesAt v w other c) (h : read v ctx c rest = .ok l)
    (hsingle : l.text = [c] → form w other c after.head? = form v ctx c l.rest.head?) :
    ∃ rest', l.text ++ after = c :: rest' ∧
      form w other c rest'.head? = form v ctx c rest.head? := by
  obtain ⟨happend, hne⟩ := reads_of_read h
  obtain ⟨d, t, ht⟩ := List.exists_cons_of_ne_nil hne
  rw [ht] at happend hsingle ⊢
  obtain ⟨rfl, rfl⟩ := List.cons.inj happend
  refine ⟨t ++ after, rfl, ?_⟩
  cases t with
  | cons e t => exact form_congr hctx (fun _ => rfl) (fun _ => rfl) fun _ => Iff.rfl
  | nil => exact hsingle rfl

/-- What is behind the first character of a lexeme decides its form, also in another text. -/
theorem form_again (hctx : ctx.Matches v w other) (h : read v ctx c rest = .ok l)
    (halike : Alike l.rest after) : ∃ rest', l.text ++ after = c :: rest' ∧
      form w other c rest'.head? = form v ctx c rest.head? := by
  refine form_behind (hctx.agreesAt c) h fun htext => ?_
  refine form_congr (hctx.agreesAt c) (fun _ => halike.any_head_of_start fun _ => id)
    (fun _ => halike.any_head fun _ => Identifier.isDigit_eq_false_of_isStart) ?_
  rintro rfl
  exact absurd htext (text_ne_backslash h)

/-- A lexeme is read again in another text where it has the same form and ends. -/
theorem read_of_form {rest' : List Char} (h : read v ctx c rest = .ok l)
    (htext : l.text ++ after = c :: rest')
    (hform : form w other c rest'.head? = form v ctx c rest.head?)
    (hend : EndsBefore l after (form v ctx c rest.head?))
    (hkind : ∀ escaped, Word.scan (c :: rest) = .ok ⟨l.text, escaped, l.rest⟩ →
      form v ctx c rest.head? = .word → l.kind = wordKind w other escaped (String.ofList l.text)) :
    read w other c rest' = .ok ⟨l.kind, l.text, after⟩ := by
  have happend := (reads_of_read h).1
  rw [read_eq_readForm, ← happend] at h
  rw [read_eq_readForm, hform, ← htext]
  refine readForm_again h hend fun hword escaped hscan => ?_
  rw [happend] at hscan
  exact hkind escaped hscan hword

/-- Under the same vocabulary a lexeme is read again where it has the same form and ends, and where
a property is named or not as before. -/
theorem read_elsewhere (hctx : ctx.AgreesAt v v other c)
    (hproperty : ctx.namesProperty = other.namesProperty) (h : read v ctx c rest = .ok l)
    (hsingle : l.text = [c] → form v other c after.head? = form v ctx c l.rest.head?)
    (hend : EndsBefore l after (form v ctx c rest.head?)) : ∃ rest', l.text ++ after = c :: rest' ∧
      read v other c rest' = .ok ⟨l.kind, l.text, after⟩ := by
  obtain ⟨rest', htext, hform⟩ := form_behind hctx h hsingle
  refine ⟨rest', htext, read_of_form h htext hform hend fun escaped hscan hword => ?_⟩
  rw [read_eq_readForm, hword] at h
  obtain ⟨escaped', hscan', hkind⟩ := word_eq_ok_iff.mp h
  cases hscan.symm.trans hscan'
  rw [hkind, wordKind, wordKind, hproperty]

/-- A lexeme is read again under another vocabulary where it ends before a text that is alike. -/
theorem read_again (hctx : ctx.Matches v w other) (h : read v ctx c rest = .ok l)
    (halike : Alike l.rest after) (hend : EndsBefore l after (form v ctx c rest.head?))
    (hkind : ∀ escaped, Word.scan (c :: rest) = .ok ⟨l.text, escaped, l.rest⟩ →
      form v ctx c rest.head? = .word → l.kind = wordKind w other escaped (String.ofList l.text)) :
    ∃ rest', l.text ++ after = c :: rest' ∧
      read w other c rest' = .ok ⟨l.kind, l.text, after⟩ := by
  obtain ⟨rest', htext, hform⟩ := form_again hctx h halike
  exact ⟨rest', htext, read_of_form h htext hform hend hkind⟩

/-- With a lexeme before them, texts that are alike behind it are closely alike. -/
theorem closelyAlike_append (h : read v ctx c rest = .ok l) (halike : Alike l.rest after) :
    CloselyAlike (l.text ++ l.rest) (l.text ++ after) := by
  obtain ⟨happend, hne⟩ := reads_of_read h
  obtain ⟨d, t, ht⟩ := List.exists_cons_of_ne_nil hne
  rw [ht] at happend ⊢
  obtain ⟨rfl, _⟩ := List.cons.inj happend
  cases t with
  | cons e t => exact .of_two halike
  | nil =>
      cases hstart : Identifier.isStart d with
      | false => exact .of_not_isStart halike hstart
      | true =>
          -- The character is a word, so what follows it is no part of a name.
          rw [read_eq_readForm, form_of_isStart v ctx _ hstart] at h
          have hpart := (Bool.or_eq_false_iff.mp (continues_of_word h)).1
          exact .of_head halike (halike.head?_eq hpart)

/-- A name that is a spelling is read as a keyword where no property is named. -/
theorem read_spelling (hproperty : other.namesProperty = false) {t : List Char}
    (hname : Identifier.isName t = true) (hspelling : w.isSpelling (String.ofList t) = true)
    (hafter : Word.continues after = false) : ∃ d rest', t ++ after = d :: rest' ∧
      read w other d rest' = .ok ⟨.keyword, t, after⟩ := by
  obtain ⟨d, t, rfl, hd⟩ := Identifier.exists_cons_of_isName hname
  refine ⟨d, t ++ after, rfl, ?_⟩
  rw [read_eq_readForm, form_of_isStart w other _ hd]
  refine word_eq_ok_iff.mpr ⟨false, Word.scan_plain (Identifier.isPart_of_isName hname) hafter, ?_⟩
  exact (wordKind_eq_keyword_iff.mpr ⟨rfl, hproperty, hspelling⟩).symm

end Lexeme

/-- No text that yields pieces goes on with a backslash where a word does not go on. -/
theorem LexerState.Yields.head?_ne_backslash {v : Vocabulary} {s : LexerState}
    {pieces : List Piece} {last : List Char} (h : Yields v s pieces last)
    (hcontinues : Word.continues s.rest = false) : s.rest.head? ≠ some '\\' := by
  intro hhead
  obtain ⟨rest, hrest⟩ : ∃ rest, s.rest = '\\' :: rest := by
    cases hs : s.rest with
    | nil =>
        rw [hs] at hhead
        cases hhead
    | cons c rest =>
        rw [hs] at hhead
        cases hhead
        exact ⟨rest, rfl⟩
  have hgap : ∀ {gap after : List Char}, Trivia.skip s.rest = .ok (gap, after) →
      gap = [] ∧ after = '\\' :: rest := by
    intro gap after hskip
    obtain ⟨htext, hisGap, _⟩ := Trivia.skip_eq_ok_iff.mp hskip
    rw [hrest] at htext
    cases gap with
    | nil => exact ⟨rfl, htext.symm⟩
    | cons c gap =>
        obtain ⟨rfl, _⟩ := List.cons.inj htext
        exact absurd hisGap.begins (by decide)
  cases h with
  | done hskip => cases (hgap hskip).2
  | token hskip hread =>
      obtain ⟨_, hcons⟩ := hgap hskip
      cases hcons
      have hu := Lexeme.head?_eq_of_read_backslash hread
      have hmark := (Bool.or_eq_false_iff.mp hcontinues).2
      rw [hrest] at hmark
      cases rest with
      | nil => cases hu
      | cons d rest =>
          cases hu
          cases hmark

end Respell
