import Respell.Proofs.Text.Pattern
import Respell.Proofs.Token.Form
import Respell.Proofs.Token.Numeral
import Respell.Proofs.Token.Punctuator

/-!
# The longest numerals and punctuators

Numerals are written as a pattern, and their matcher is the reading of this pattern, which goes
through its alternatives in their order. `straight_pattern` states that a search for the pattern
finds the same, and `takesWhole_pattern` that a numeral on its own is taken as a whole, so that
always the longest one is taken: a radix mark, a point or an exponent that comes to nothing is left
behind, and nothing else is.

Punctuators are looked up in a table, and the first one of it that begins the text is taken. It is
the longest since no punctuator stands in the table before one that begins with it. The exception is
`AccessesDigit`. `Lexeme.read_longest` sums up both.
-/

namespace Respell

open Text Text.Matcher

namespace Numeral

open Pattern

variable {lower upper : Char} {digit : Char → Bool} {others : Pattern Char}

/-- The mark of a big integer, if there is one. -/
def bigMarkPattern : Pattern Char := .optional (.one (· == 'n'))

/-- A zero, one of the two radix marks, and at least one digit of that radix. -/
def radixPattern (lower upper : Char) (digit : Char → Bool) : Pattern Char :=
  .sequence (.one (· == '0'))
    (.sequence (.one fun c => c == lower || c == upper)
      (.sequence (.sequence (.one digit) (.many digit)) bigMarkPattern))

/-- Decimal digits, of which the first is no separator. -/
def digitsPattern : Pattern Char := .sequence (.one Char.isDigit) (.many isDecimal)

/-- The fraction behind some digits. -/
def fractionPattern : Pattern Char := .sequence (.one (· == '.')) (.many isDecimal)

/-- Digits with an optional fraction, or a fraction alone, which then is not empty. -/
def mantissaPattern : Pattern Char :=
  .choice (.sequence digitsPattern (.optional fractionPattern))
    (.sequence (.one (· == '.')) digitsPattern)

/-- An exponent with its optional sign. -/
def exponentPattern : Pattern Char :=
  .sequence (.one isExponentMark) (.sequence (.optional (.one isSign)) digitsPattern)

/-- A decimal numeral. -/
def decimalPattern : Pattern Char :=
  .sequence mantissaPattern (.sequence (.optional exponentPattern) bigMarkPattern)

/-- A numeral: hexadecimal, octal, binary or decimal. -/
def pattern : Pattern Char :=
  .choice (radixPattern 'x' 'X' fun c => isHexDigit c || c == '_')
    (.choice (radixPattern 'o' 'O' fun c => ('0' ≤ c && c ≤ '7') || c == '_')
      (.choice (radixPattern 'b' 'B' fun c => c == '0' || c == '1' || c == '_') decimalPattern))

/-- Numerals are read as the pattern says. -/
theorem matcher_pattern : Pattern.matcher pattern = numeral := rfl

theorem straight_bigMarkPattern : Straight bigMarkPattern := (straight_one _).optional

theorem straight_digitsPattern : Straight digitsPattern :=
  .one_sequence _ (straight_many _)

theorem straight_radixPattern (lower upper : Char) (digit : Char → Bool) :
    Straight (radixPattern lower upper digit) :=
  .one_sequence _ (.one_sequence _
    ((Straight.one_sequence _ (straight_many _)).sequence_of_total straight_bigMarkPattern
      total_bigMark))

/-- Without digits behind its sign an exponent has none before it either. -/
theorem straight_exponentPattern : Straight exponentPattern := by
  refine .one_sequence _ (straight_digitsPattern.optional_one_sequence fun c s hsign => ?_)
  by_contra hdigits
  have hdigit : c.isDigit = true := digits_ne_none_iff.mp hdigits
  rw [isSign, Bool.or_eq_true, beq_iff_eq, beq_iff_eq] at hsign
  rcases hsign with rfl | rfl <;> cases hdigit

theorem straight_decimalPattern : Straight decimalPattern := by
  have hfraction : Straight fractionPattern := .one_sequence _ (straight_many _)
  have hmantissa : Straight mantissaPattern :=
    (straight_digitsPattern.sequence_of_total hfraction.optional (total_optional _)).choice
      (.one_sequence _ straight_digitsPattern)
  exact hmantissa.sequence_of_total
    (straight_exponentPattern.optional.sequence_of_total straight_bigMarkPattern total_bigMark)
    ((total_optional _).sequence total_bigMark)

/-- A search for a numeral never has to go back. -/
theorem straight_pattern : Straight pattern :=
  (straight_radixPattern _ _ _).choice ((straight_radixPattern _ _ _).choice
    ((straight_radixPattern _ _ _).choice straight_decimalPattern))

theorem takesWhole_bigMarkPattern : TakesWhole bigMarkPattern := (takesWhole_one _).optional

theorem takesWhole_digitsPattern : TakesWhole digitsPattern :=
  .one_sequence _ (takesWhole_many _)

/-- The digits of a radix are told from the mark behind them where it is not one of them. -/
theorem takesWhole_radixPattern (lower upper : Char) (hmark : digit 'n' = false) :
    TakesWhole (radixPattern lower upper digit) := by
  have hdigits : TakesWhole (.sequence (.one digit) (.many digit)) :=
    .one_sequence _ (takesWhole_many _)
  refine .one_sequence _ (.one_sequence _ (hdigits.sequence_of_apart takesWhole_bigMarkPattern
    (greedy_run digit digit) fun c hc => ?_))
  rw [eq_of_beq (show (c == 'n') = true from hc)]
  show (digit 'n' || digit 'n') = false
  rw [hmark]
  rfl

/-- A point belongs to no run of digits, so digits end before a fraction; and a text that begins
with a point begins with no digits. -/
theorem takesWhole_mantissaPattern : TakesWhole mantissaPattern := by
  have hfraction : TakesWhole fractionPattern := .one_sequence _ (takesWhole_many _)
  have hwhole : TakesWhole (.sequence digitsPattern (.optional fractionPattern)) := by
    refine takesWhole_digitsPattern.sequence_of_apart hfraction.optional (greedy_run _ _)
      fun c hc => ?_
    have hpoint : (c == '.' || false) = true := hc
    rw [Bool.or_false] at hpoint
    rw [eq_of_beq hpoint]
    rfl
  refine hwhole.choice (.one_sequence _ takesWhole_digitsPattern) fun t ht => ?_
  obtain ⟨_, ⟨c, rfl, hc⟩, v, _, rfl⟩ := Language.mem_mul.mp ht
  rw [eq_of_beq hc]
  exact (sequence_eq_none_iff_of_total (total_optional _)).mpr rfl

/-- A sign is no digit. -/
theorem takesWhole_exponentPattern : TakesWhole exponentPattern := by
  have hsign : TakesWhole (.optional (.one isSign)) := (takesWhole_one _).optional
  refine .one_sequence _ (hsign.sequence_of_apart takesWhole_digitsPattern
    (selfDelimiting_one _).greedy.optional fun c hc => ?_)
  have hdigit : c.isDigit = true := by simpa [digitsPattern, begins, nullable] using hc
  by_contra hsign
  rw [Bool.not_eq_false] at hsign
  rw [show uses (.optional (.one isSign)) c = isSign c from rfl, isSign, Bool.or_eq_true,
    beq_iff_eq, beq_iff_eq] at hsign
  rcases hsign with rfl | rfl <;> cases hdigit

/-- Neither an exponent nor the mark of a big integer begins with what may stand in a mantissa, and
the mark does not stand in an exponent. -/
theorem takesWhole_decimalPattern : TakesWhole decimalPattern := by
  have hend : TakesWhole (.sequence (.optional exponentPattern) bigMarkPattern) := by
    refine takesWhole_exponentPattern.optional.sequence_of_apart takesWhole_bigMarkPattern
      greedy_exponent.optional fun c hc => ?_
    rw [eq_of_beq (show (c == 'n') = true from hc)]
    rfl
  refine takesWhole_mantissaPattern.sequence_of_apart hend greedy_mantissa fun c hc => ?_
  have hmark : c = 'e' ∨ c = 'E' ∨ c = 'n' := by
    simpa [exponentPattern, bigMarkPattern, begins, nullable, isExponentMark, or_assoc] using hc
  rcases hmark with rfl | rfl | rfl <;> rfl

/-- No numeral without the mark of a radix begins with a zero and the mark. -/
theorem takesWhole_radixPattern_choice (hothers : TakesWhole others)
    (hmark : digit 'n' = false) (hlower : TakesZeroBefore lower others.matcher)
    (hupper : TakesZeroBefore upper others.matcher) :
    TakesWhole (.choice (radixPattern lower upper digit) others) := by
  refine (takesWhole_radixPattern lower upper hmark).choice hothers fun t ht => ?_
  by_contra hradix
  obtain ⟨c, d, rest, rfl, hc, _⟩ := radix_ne_none_iff.mp hradix
  have hzero : TakesZeroBefore c others.matcher := by rcases hc with rfl | rfl <;> assumption
  cases (hzero (d :: rest)).symm.trans (hothers _ ht)

/-- Every numeral is taken as a whole when it stands alone. -/
theorem takesWhole_pattern : TakesWhole pattern := by
  have hbinary : TakesWhole (.choice
      (radixPattern 'b' 'B' fun c => c == '0' || c == '1' || c == '_') decimalPattern) :=
    takesWhole_radixPattern_choice takesWhole_decimalPattern rfl
      (takesZeroBefore_decimal (by decide)) (takesZeroBefore_decimal (by decide))
  have hoctal : TakesWhole (.choice
      (radixPattern 'o' 'O' fun c => ('0' ≤ c && c ≤ '7') || c == '_') _) :=
    takesWhole_radixPattern_choice hbinary rfl
      (takesZeroBefore_binary (by decide) _) (takesZeroBefore_binary (by decide) _)
  exact takesWhole_radixPattern_choice hoctal rfl
    (takesZeroBefore_octal (by decide) _ _) (takesZeroBefore_octal (by decide) _ _)

/-- The longest numeral that begins a text is taken. -/
theorem numeral_eq_some_iff {s t rest : List Char} :
    numeral s = some (t, rest) ↔ IsLongest (· ∈ pattern.language) s t rest := by
  rw [← matcher_pattern]
  exact matcher_eq_some_iff straight_pattern greedy_numeral takesWhole_pattern

end Numeral

namespace Punctuator

variable {p s t rest : List Char}

/-- The text begins with a question mark, a point and a digit. -/
def AccessesDigit (s : List Char) : Prop :=
  ∃ d x, s = '?' :: '.' :: d :: x ∧ d.isDigit = true

/-- No punctuator stands in the table before one that begins with it. -/
theorem pairwise_not_prefix : all.Pairwise fun p q => ¬ p <+: q := by decide +kernel

/-- The first punctuator of the table that begins a text is the longest that does. -/
theorem find?_eq_some_iff_isLongest (htext : s = p ++ rest) :
    all.find? (·.isPrefixOf s) = some p ↔ IsLongest (· ∈ all) s p rest := by
  have hlongest : ∀ {p rest}, s = p ++ rest → all.find? (·.isPrefixOf s) = some p →
      IsLongest (· ∈ all) s p rest := by
    intro p rest htext hfind
    refine ⟨List.mem_of_find?_eq_some hfind, htext, fun q hq hbegin => ?_⟩
    obtain ⟨_, front, back, hall, hfront⟩ := List.find?_eq_some_iff_append.mp hfind
    rw [hall, List.mem_append, List.mem_cons] at hq
    rcases hq with hq | rfl | hq
    · have hnot := hfront q hq
      rw [List.isPrefixOf_iff_prefix.mpr hbegin] at hnot
      cases hnot
    · exact Nat.le_refl _
    · -- One that stands behind it in the table would begin with it if it were longer.
      have hpairwise := pairwise_not_prefix
      rw [hall] at hpairwise
      have hnot := List.rel_of_pairwise_cons (List.pairwise_append.mp hpairwise).2.1 hq
      by_contra hlonger
      exact hnot (List.prefix_of_prefix_length_le ⟨rest, htext.symm⟩ hbegin
        (Nat.le_of_not_le hlonger))
  refine ⟨hlongest htext, fun h => ?_⟩
  cases hfind : all.find? (·.isPrefixOf s) with
  | none =>
      have hnone := List.find?_eq_none.mp hfind p h.holds
      exact absurd (List.isPrefixOf_iff_prefix.mpr ⟨rest, htext.symm⟩) hnone
  | some q =>
      obtain ⟨last, hlast⟩ := prefix_of_find?_eq_some hfind
      rw [((hlongest hlast.symm hfind).unique h).1]

/-- Where no digit is accessed, the longest punctuator that begins the text is taken. -/
theorem punctuator_eq_some_iff_isLongest (h : ¬ AccessesDigit s) :
    punctuator s = some (t, rest) ↔ IsLongest (· ∈ all) s t rest := by
  have htaken : ∀ p, p <+: s → taken p s = p := by
    rintro p hbegin
    refine if_neg fun haccess => ?_
    obtain ⟨rfl, hdigit⟩ := haccess
    obtain ⟨x, rfl⟩ := hbegin
    cases x with
    | nil => cases hdigit
    | cons d x => exact h ⟨d, x, rfl, hdigit⟩
  rw [punctuator_eq_some_iff]
  constructor
  · rintro ⟨p, hfind, ht, htext⟩
    rw [htaken p (prefix_of_find?_eq_some hfind)] at ht
    subst ht
    exact (find?_eq_some_iff_isLongest htext).mp hfind
  · intro hlongest
    have hfind := (find?_eq_some_iff_isLongest hlongest.append_eq).mpr hlongest
    exact ⟨t, hfind, (htaken t (prefix_of_find?_eq_some hfind)).symm, hlongest.append_eq⟩

/-- Where a digit is accessed, the question mark stands alone. -/
theorem punctuator_of_accessesDigit (h : AccessesDigit s) :
    punctuator s = some (t, rest) ↔ t = ['?'] ∧ s = t ++ rest := by
  obtain ⟨d, x, rfl, hdigit⟩ := h
  have hfind : all.find? (·.isPrefixOf ('?' :: '.' :: d :: x)) = some optionalAccess := rfl
  have htaken : taken optionalAccess ('?' :: '.' :: d :: x) = ['?'] :=
    if_pos ⟨rfl, hdigit⟩
  rw [punctuator_eq_some_iff, hfind]
  simp [htaken]

/-- A text is refused where no punctuator begins it. -/
theorem punctuator_eq_none_iff : punctuator s = none ↔ ∀ p ∈ all, ¬ p <+: s := by
  refine ⟨not_prefix_of_eq_none, fun h => ?_⟩
  by_contra hsome
  obtain ⟨⟨t, rest⟩, hsome⟩ := Option.ne_none_iff_exists'.mp hsome
  obtain ⟨p, hfind, _⟩ := punctuator_eq_some_iff.mp hsome
  exact h p (List.mem_of_find?_eq_some hfind) (prefix_of_find?_eq_some hfind)

end Punctuator

/-- **Numerals and punctuators are taken by longest match.** Where a numeral is read, there is one,
it is what a search for the pattern finds, and no first part of the text in the language of the
pattern is longer. Where a punctuator is read, it is the longest of the table that begins the text,
except for a question mark before a point and a digit, and the reading is at fault exactly where
none of them begins the text. -/
theorem Lexeme.read_longest (v : Vocabulary) (ctx : Context) (c : Char) (rest : List Char) :
    (form v ctx c rest.head? = .numeral → ∃ l, read v ctx c rest = .ok l ∧ l.kind = .numeric ∧
      l.text ≠ [] ∧ (Numeral.pattern.tries (c :: rest)).head? = some (l.text, l.rest) ∧
      IsLongest (· ∈ Numeral.pattern.language) (c :: rest) l.text l.rest) ∧
    (form v ctx c rest.head? = .punctuator →
      (∀ l, read v ctx c rest = .ok l ↔ l.kind = .punctuator ∧ c :: rest = l.text ++ l.rest ∧
        (Punctuator.AccessesDigit (c :: rest) → l.text = ['?']) ∧
        (¬ Punctuator.AccessesDigit (c :: rest) →
          IsLongest (· ∈ Punctuator.all) (c :: rest) l.text l.rest)) ∧
      ((∃ e, read v ctx c rest = .error e) ↔ ∀ p ∈ Punctuator.all, ¬ p <+: c :: rest)) := by
  rw [read_eq_readForm]
  refine ⟨fun hform => ?_, fun hform => ?_⟩
  · have hbegins : c.isDigit = true ∨ c = '.' ∧ rest.head?.any Char.isDigit = true :=
      begins_of_form hform
    rw [hform, readForm]
    obtain ⟨⟨t, last⟩, hnumeral⟩ :=
      Option.ne_none_iff_exists'.mp (Numeral.numeral_ne_none hbegins)
    exact ⟨⟨.numeric, t, last⟩, ofMatcher_eq_ok_iff.mpr ⟨rfl, hnumeral⟩, rfl,
      Numeral.advances_numeral _ _ _ hnumeral,
      (Numeral.straight_pattern _).trans hnumeral, Numeral.numeral_eq_some_iff.mp hnumeral⟩
  · rw [hform, readForm]
    refine ⟨fun l => ofMatcher_eq_ok_iff.trans (and_congr_right fun _ => ?_), ?_⟩
    · by_cases haccess : Punctuator.AccessesDigit (c :: rest)
      · rw [Punctuator.punctuator_of_accessesDigit haccess]
        simp only [haccess, not_true_eq_false, true_imp_iff, false_imp_iff, and_true]
        exact and_comm
      · rw [Punctuator.punctuator_eq_some_iff_isLongest haccess]
        simp only [haccess, not_false_eq_true, true_imp_iff, false_imp_iff, true_and]
        exact ⟨fun h => ⟨h.append_eq, h⟩, And.right⟩
    · rw [← Punctuator.punctuator_eq_none_iff]
      simp only [ofMatcher_eq_error_iff]
      constructor
      · rintro ⟨_, _, hnone⟩
        exact hnone
      · intro hnone
        exact ⟨_, rfl, hnone⟩

/-- A binary numeral ends before a digit that is none of its radix, and a question mark before a
fraction stands alone. -/
theorem Lexeme.read_longest_in_turn :
    let v : Vocabulary := ⟨"plain", ⟨[("if", "if")], List.pairwise_singleton _ _⟩,
      List.pairwise_singleton _ _⟩
    form v Context.initial '0' (some 'b') = .numeral ∧
      form v Context.initial '?' (some '.') = .punctuator ∧
      (∃ l, read v Context.initial '0' ['b', '1', '2'] = .ok l ∧ l.text = ['0', 'b', '1'] ∧
        IsLongest (· ∈ Numeral.pattern.language) ['0', 'b', '1', '2'] l.text l.rest) ∧
      read v Context.initial '?' ['.', '5'] = .ok ⟨.punctuator, ['?'], ['.', '5']⟩ := by
  intro v
  have hnumeral : form v Context.initial '0' (some 'b') = .numeral := by decide +kernel
  have hpunctuator : form v Context.initial '?' (some '.') = .punctuator := by decide +kernel
  have haccess : Punctuator.AccessesDigit ['?', '.', '5'] := ⟨'5', [], rfl, rfl⟩
  obtain ⟨l, hread, hkind, _, htries, hlongest⟩ :=
    (read_longest v Context.initial '0' ['b', '1', '2']).1 hnumeral
  have htext : some (['0', 'b', '1'], ['2']) = some (l.text, l.rest) := htries
  obtain ⟨htext, _⟩ := Prod.mk.inj (Option.some.inj htext)
  refine ⟨hnumeral, hpunctuator, ⟨l, hread, htext.symm, hlongest⟩, ?_⟩
  exact (((read_longest v Context.initial '?' ['.', '5']).2 hpunctuator).1 _).mpr
    ⟨rfl, rfl, fun _ => rfl, fun hnot => absurd haccess hnot⟩

end Respell
