import Respell.Proofs.Token.Again

/-!
# Tokens before a blank

A blank ends every token. No token but a string, a template and a regular expression has a blank in
it, and these end at a mark of their own. So a token that was read in one text is read again where
the text behind it is over or goes on with a blank, whatever stood behind it before.
`Lexeme.read_separated` states this. The form of the token is the same there: the second character
decides it only for a hash, a point and a backslash, and none of these is such a token alone.
-/

namespace Respell

open Text Text.Matcher

namespace Trivia

/-- The character is one of the visible ones of ASCII. -/
def isVisible (c : Char) : Bool := 0x20 < c.toNat && c.toNat < 0x7F

/-- None of these is a blank. -/
theorem isBlank_eq_false_of_isVisible {c : Char} (h : isVisible c = true) : isBlank c = false := by
  rw [isVisible, Bool.and_eq_true, decide_eq_true_eq, decide_eq_true_eq] at h
  have hmark : (c == '\uFEFF') = false := by
    rw [beq_eq_false_iff_ne]
    rintro rfl
    exact absurd h.2 (by decide)
  have hspace : Unicode.isBlank c = false := by
    simp only [Unicode.isBlank, Unicode.blank, Unicode.Ranges.covers]
    rw [if_neg (by omega), if_neg (by omega), if_neg (by omega), if_neg (by omega),
      if_pos (by omega)]
  rw [isBlank, hspace, hmark]
  rfl

/-- Between two visible characters all are visible. -/
theorem isVisible_of_between {a b c : Char} (ha : isVisible a = true) (hb : isVisible b = true)
    (hac : a ≤ c) (hcb : c ≤ b) : isVisible c = true := by
  simp only [isVisible, Bool.and_eq_true, decide_eq_true_eq] at ha hb ⊢
  exact ⟨Nat.lt_of_lt_of_le ha.1 hac, Nat.lt_of_le_of_lt hcb hb.2⟩

/-- The text is over or goes on with a blank. -/
def Separates (s : List Char) : Prop := ∀ c ∈ s.head?, isBlank c = true

namespace Separates

variable {mark t s other : List Char} {p : Char → Bool}

/-- A property of visible characters is none of the first character. -/
theorem any_head (h : Separates s) (hp : ∀ c, p c = true → isVisible c = true) :
    s.head?.any p = false := by
  cases s with
  | nil => rfl
  | cons c s =>
      cases hc : p c with
      | false => rwa [List.head?_cons, Option.any_some]
      | true =>
          have := isBlank_eq_false_of_isVisible (hp c hc)
          rw [h c rfl] at this
          cases this

/-- No name goes on. -/
theorem any_head_isPart (h : Separates s) : s.head?.any Identifier.isPart = false := by
  cases s with
  | nil => rfl
  | cons c s => exact Identifier.isPart_eq_false_of_isBlank (h c rfl)

/-- No name begins. -/
theorem any_head_isStart (h : Separates s) : s.head?.any Identifier.isStart = false := by
  cases s with
  | nil => rfl
  | cons c s =>
      have hpart := h.any_head_isPart
      rw [List.head?_cons, Option.any_some] at hpart ⊢
      by_contra hstart
      rw [Bool.not_eq_false] at hstart
      rw [Identifier.isPart_of_isStart hstart] at hpart
      cases hpart

/-- A visible mark stands at the beginning of a text before such a text exactly when it is a first
part of it. -/
theorem prefix_append_iff (h : Separates s) (hmark : mark.all isVisible = true) :
    mark <+: t ++ s ↔ mark <+: t := by
  refine ⟨fun hbegin => ?_, fun hbegin => hbegin.trans (List.prefix_append t s)⟩
  rcases List.prefix_or_prefix_of_prefix hbegin (List.prefix_append t s) with hle | ⟨more, rfl⟩
  · exact hle
  · cases more with
    | nil => simp
    | cons c more =>
        -- The mark would go on with the blank.
        obtain ⟨last, rfl⟩ := (List.prefix_append_right_inj t).mp hbegin
        have hvisible := List.all_eq_true.mp hmark c (List.mem_append_right _ List.mem_cons_self)
        have hblank := h c rfl
        rw [isBlank_eq_false_of_isVisible hvisible] at hblank
        cases hblank

/-- No word goes on. -/
theorem continues_eq_false (h : Separates s) : Word.continues s = false := by
  refine Bool.or_eq_false_iff.mpr ⟨h.any_head_isPart, ?_⟩
  by_contra hescape
  rw [Bool.not_eq_false, List.isPrefixOf_iff_prefix] at hescape
  have hnil := (h.prefix_append_iff (t := []) rfl).mp hescape
  cases List.prefix_nil.mp hnil

end Separates

/-- A text that is not empty and begins with no blank and no comment does so also before another
text that separates. -/
theorem Stops.of_separates {t s other : List Char} (h : Stops (t ++ s)) (hne : t ≠ [])
    (hother : Separates other) : Stops (t ++ other) := by
  have hkeeps : ∀ {mark : List Char}, mark.all isVisible = true → mark <+: t ++ other →
      mark <+: t ++ s := fun hmark hbegin =>
    ((hother.prefix_append_iff hmark).mp hbegin).trans (List.prefix_append _ _)
  refine ⟨?_, ?_, ?_⟩
  · obtain ⟨c, t, rfl⟩ := List.exists_cons_of_ne_nil hne
    exact h.blank
  · by_contra hline
    rw [Bool.not_eq_false, beginsLineComment_iff] at hline
    obtain ⟨mark, hmark, hbegin⟩ := hline
    have hvisible : mark.all isVisible = true := by
      rcases hmark with rfl | rfl <;> rfl
    have := beginsLineComment_iff.mpr ⟨mark, hmark, hkeeps hvisible hbegin⟩
    rw [h.lineComment] at this
    cases this
  · by_contra hblock
    rw [Bool.not_eq_false, beginsBlockComment, List.isPrefixOf_iff_prefix] at hblock
    have := List.isPrefixOf_iff_prefix.mpr (hkeeps rfl hblock)
    rw [← beginsBlockComment, h.blockComment] at this
    cases this

end Trivia

namespace Numeral

open Trivia

theorem isVisible_of_isDigit (c : Char) (h : c.isDigit = true) : isVisible c = true := by
  rw [Char.isDigit, Bool.and_eq_true, decide_eq_true_eq, decide_eq_true_eq] at h
  exact isVisible_of_between (a := '0') (b := '9') rfl rfl h.1 h.2

theorem isVisible_of_isHexDigit (c : Char) (h : isHexDigit c = true) : isVisible c = true := by
  simp only [isHexDigit, Bool.or_eq_true, Bool.and_eq_true, decide_eq_true_eq] at h
  rcases h with (h | h) | h
  · exact isVisible_of_isDigit c h
  · exact isVisible_of_between (b := 'f') rfl rfl h.1 h.2
  · exact isVisible_of_between (b := 'F') rfl rfl h.1 h.2

/-- All characters of a numeral are visible. -/
theorem isVisible_of_isNumeralPart (c : Char) (h : isNumeralPart c = true) :
    isVisible c = true := by
  rw [isNumeralPart, Bool.or_eq_true] at h
  rcases h with h | h
  · exact isVisible_of_isHexDigit c h
  · have hmarks : ['_', '.', '+', '-', 'n', 'x', 'X', 'o', 'O'].all isVisible = true := by decide
    exact List.all_eq_true.mp hmarks c (List.contains_iff_mem.mp h)

/-- A numeral ends before a blank. -/
theorem numeral_separated {t s other : List Char} (h : numeral (t ++ s) = some (t, s))
    (hother : Separates other) : numeral (t ++ other) = some (t, other) :=
  greedy_numeral.ends splits_numeral takesOnly_numeral [] h
    (hother.any_head isVisible_of_isNumeralPart)

/-- A point alone is no numeral. -/
theorem numeral_ne_point {s : List Char} : numeral ('.' :: s) ≠ some (['.'], s) := by
  intro h
  obtain ⟨u, last, hu⟩ := greedy_numeral ['.'] s [] h
  cases hu

end Numeral

namespace Punctuator

open Trivia

/-- All characters of a punctuator are visible. -/
theorem all_isVisible_of_mem_all : ∀ p ∈ all, p.all isVisible = true := by decide

/-- Alone, a punctuator is the first one that begins it. -/
theorem find?_of_mem_all : ∀ p ∈ all, all.find? (·.isPrefixOf p) = some p := by decide

/-- What is taken is a punctuator of the list. -/
theorem taken_mem_all {p : List Char} (h : p ∈ all) (s : List Char) : taken p s ∈ all := by
  rw [taken]
  split
  · decide
  · exact h

/-- A punctuator ends before a blank. -/
theorem punctuator_separated {t s other : List Char} (h : punctuator (t ++ s) = some (t, s))
    (hother : Separates other) : punctuator (t ++ other) = some (t, other) := by
  obtain ⟨p, hfind, ht, _⟩ := punctuator_eq_some_iff.mp h
  have hmem : t ∈ all := ht ▸ taken_mem_all (List.mem_of_find?_eq_some hfind) _
  refine punctuator_eq_some_iff.mpr ⟨t, ?_, ?_, rfl⟩
  · rw [← find?_of_mem_all t hmem]
    refine List.find?_congr fun q hq => ?_
    rw [Bool.eq_iff_iff, List.isPrefixOf_iff_prefix, List.isPrefixOf_iff_prefix]
    exact hother.prefix_append_iff (all_isVisible_of_mem_all q hq)
  · -- Behind the point of optional access stands no digit, but a blank.
    rw [taken, if_neg]
    rintro ⟨rfl, hdigit⟩
    have hnone := hother.any_head Numeral.isVisible_of_isDigit
    rw [optionalAccess, List.cons_append, List.cons_append, List.nil_append, List.drop_succ_cons,
      List.drop_succ_cons, List.drop_zero, hnone] at hdigit
    cases hdigit

end Punctuator

namespace Lexeme

open Trivia

variable {v w : Vocabulary} {ctx other : Context} {c : Char} {rest after : List Char} {l : Lexeme}
  {f : Form}

/-- Every lexeme ends before a blank. -/
theorem endsBefore_of_separates (h : readForm v ctx c (l.text ++ l.rest) f = .ok l)
    (hafter : Separates after) : EndsBefore l after f := by
  cases f with
  | string | template => trivial
  | privateName | regex => exact hafter.any_head_isPart
  | word => exact hafter.continues_eq_false
  | numeral => exact Numeral.numeral_separated (ofMatcher_eq_ok_iff.mp h).2 hafter
  | punctuator => exact Punctuator.punctuator_separated (ofMatcher_eq_ok_iff.mp h).2 hafter

/-- Of one character, a hash is read where no name begins behind it. -/
theorem any_isStart_of_read_hash (h : read v ctx '#' rest = .ok l) (htext : l.text = ['#']) :
    l.rest.head?.any Identifier.isStart = false := by
  have happend := (reads_of_read h).1
  rw [htext, List.singleton_append] at happend
  obtain ⟨_, hrest⟩ := List.cons.inj happend
  by_contra hstart
  rw [Bool.not_eq_false, hrest] at hstart
  -- The hash would have been read with the name.
  have hform : form v ctx '#' rest.head? = .privateName := by
    simp [form, hstart, singleQuote, doubleQuote, Literal.templateQuote]
  rw [read_eq_readForm, hform, readForm, ofMatcher_eq_ok_iff, hrest, privateName, Matcher.run] at h
  have hpart := head?_any_of_sequence_many h.2
  cases rest with
  | nil => cases hstart
  | cons d rest =>
      rw [List.head?_cons, Option.any_some] at hpart hstart
      rw [Identifier.isPart_of_isStart hstart] at hpart
      cases hpart

/-- Of one character, a point is read where no digit stands behind it. -/
theorem any_isDigit_of_read_point (h : read v ctx '.' rest = .ok l) (htext : l.text = ['.']) :
    l.rest.head?.any Char.isDigit = false := by
  have happend := (reads_of_read h).1
  rw [htext, List.singleton_append] at happend
  obtain ⟨_, hrest⟩ := List.cons.inj happend
  by_contra hdigit
  rw [Bool.not_eq_false, hrest] at hdigit
  have hstart : Identifier.isStart '.' = false := by decide
  have hform : form v ctx '.' rest.head? = .numeral := by
    simp [form, hdigit, hstart, singleQuote, doubleQuote, Literal.templateQuote]
  rw [read_eq_readForm, hform, readForm, ofMatcher_eq_ok_iff, htext, hrest] at h
  exact Numeral.numeral_ne_point h.2

/-- A lexeme of one character has the same form before a blank. -/
theorem form_separated (hctx : ctx.AgreesAt v w other c) (h : read v ctx c rest = .ok l)
    (hafter : Separates after) (htext : l.text = [c]) :
    form w other c after.head? = form v ctx c l.rest.head? := by
  refine form_congr hctx ?_ ?_ ?_
  · rintro rfl
    rw [hafter.any_head_isStart]
    exact any_isStart_of_read_hash h htext
  · rintro rfl
    rw [hafter.any_head Numeral.isVisible_of_isDigit]
    exact any_isDigit_of_read_point h htext
  · rintro rfl
    exact absurd htext (text_ne_backslash h)

/-- A lexeme is read again before a blank where the context has the same structure. -/
theorem read_separated (hctx : ctx.Matches v v other) (h : read v ctx c rest = .ok l)
    (hafter : Separates after) : ∃ rest', l.text ++ after = c :: rest' ∧
      read v other c rest' = .ok ⟨l.kind, l.text, after⟩ := by
  have hread := h
  rw [read_eq_readForm, ← (reads_of_read h).1] at hread
  exact read_elsewhere (hctx.agreesAt c) hctx.namesProperty h
    (form_separated (hctx.agreesAt c) h hafter) (endsBefore_of_separates hread hafter)

end Lexeme

end Respell
