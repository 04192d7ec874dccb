import Mathlib.Tactic.ByContra
import Respell.Proofs.Text.Greedy
import Respell.Proofs.Token.Alike
import Respell.Token.Numeral

/-!
# Where a numeral ends

How far a numeral is read depends on up to three characters behind it: a letter may begin an
exponent, or a radix after a zero, and then the next characters decide. `numeral_congr` states that
a numeral is read again before a text that is closely alike to the one behind it. `greedy_numeral`
states that a numeral is never read shorter than it can be, and `takesOnly_numeral` which characters
it is made of.
-/

namespace Respell.Numeral

open Text Text.Matcher

/-- The character begins an exponent. -/
def isExponentMark (c : Char) : Bool := c == 'e' || c == 'E'

/-- The character is a sign. -/
def isSign (c : Char) : Bool := c == '+' || c == '-'

theorem total_bigMark : Total bigMark := total_optional _

theorem looksOneAhead_bigMark : LooksOneAhead bigMark :=
  (selfDelimiting_exactly _).looksOneAhead.optional (decidesByHead_one _)

theorem greedy_bigMark : Greedy bigMark := (selfDelimiting_exactly _).greedy.optional

/-- A big integer's mark or a run of digits is told from what follows by its next character. -/
theorem looksOneAhead_radix (lower upper : Char) (digit : Char → Bool) :
    LooksOneAhead (radix lower upper digit) := by
  have hdigits := (looksOneAhead_run digit digit).sequence looksOneAhead_bigMark splits_bigMark
  have hsplits := (splits_run digit digit).sequence splits_bigMark
  exact (selfDelimiting_exactly _).looksOneAhead.sequence
    ((selfDelimiting_one _).looksOneAhead.sequence hdigits hsplits)
    ((splits_one _).sequence hsplits)

theorem greedy_radix (lower upper : Char) (digit : Char → Bool) :
    Greedy (radix lower upper digit) := by
  have hsplits := (splits_run digit digit).sequence splits_bigMark
  have hdigits : Greedy (sequence (run digit digit) bigMark) :=
    (greedy_run digit digit).sequence_of_looksOneAhead (looksOneAhead_run digit digit)
      greedy_bigMark splits_bigMark (Or.inr total_bigMark)
  have hmarked : Greedy (sequence (one fun c => c == lower || c == upper)
      (sequence (run digit digit) bigMark)) :=
    (selfDelimiting_one _).greedy_sequence hdigits hsplits (Or.inl (advances_run _ _).sequence)
  exact (selfDelimiting_exactly _).greedy_sequence hmarked ((splits_one _).sequence hsplits)
    (Or.inl (advances_one _).sequence)

theorem decidesByHead_digits : DecidesByHead digits := (decidesByHead_one _).sequence (total_many _)

theorem looksOneAhead_digits : LooksOneAhead digits := looksOneAhead_run _ _

/-- The fraction behind some digits. -/
def fraction : Matcher Char := sequence (exactly '.') (many isDecimal)

theorem looksOneAhead_fraction : LooksOneAhead fraction :=
  (selfDelimiting_exactly _).looksOneAhead.sequence (looksOneAhead_many _) (splits_many _)

theorem greedy_fraction : Greedy fraction :=
  (selfDelimiting_exactly _).greedy_sequence (greedy_many _) (splits_many _)
    (Or.inr (total_many _))

theorem decidesByHead_fraction : DecidesByHead fraction :=
  (decidesByHead_one _).sequence (total_many _)

theorem splits_fraction : Splits fraction := (splits_one _).sequence (splits_many _)

/-- Digits and a fraction are refused where no digit comes first. -/
theorem decidesByHead_digits_fraction : DecidesByHead (sequence digits (optional fraction)) :=
  decidesByHead_digits.sequence (total_optional _)

theorem looksOneAhead_mantissa : LooksOneAhead mantissa :=
  (looksOneAhead_digits.sequence (looksOneAhead_fraction.optional decidesByHead_fraction)
    splits_fraction.optional).orElse
    ((selfDelimiting_exactly _).looksOneAhead.sequence looksOneAhead_digits (splits_run _ _))
    decidesByHead_digits_fraction

theorem greedy_mantissa : Greedy mantissa := by
  have hwhole : Greedy (sequence digits (optional fraction)) :=
    (greedy_run _ _).sequence_of_looksOneAhead looksOneAhead_digits greedy_fraction.optional
      splits_fraction.optional (Or.inr (total_optional _))
  have hpoint : Greedy (sequence (exactly '.') digits) :=
    (selfDelimiting_exactly _).greedy_sequence (greedy_run _ _) (splits_run _ _)
      (Or.inl (advances_run _ _))
  refine hwhole.orElse hpoint fun t rest other w last hrefused h hother => ?_
  -- The first character has decided already, so this does not happen.
  have hne : t ≠ [] := (advances_one _).sequence _ _ _ h
  rw [decidesByHead_digits_fraction _ _ (head?_append_congr fun hnil => absurd hnil hne)
    hrefused] at hother
  cases hother

theorem looksOneAhead_exponent : LooksOneAhead exponent :=
  (selfDelimiting_one _).looksOneAhead.sequence
    (((selfDelimiting_one _).looksOneAhead.optional (decidesByHead_one _)).sequence
      looksOneAhead_digits (splits_run _ _))
    ((splits_one _).optional.sequence (splits_run _ _))

theorem greedy_exponent : Greedy exponent := by
  have hsign : LooksOneAhead (optional (one isSign)) :=
    (selfDelimiting_one _).looksOneAhead.optional (decidesByHead_one _)
  have hsigned : Greedy (sequence (optional (one isSign)) digits) :=
    (selfDelimiting_one _).greedy.optional.sequence_of_looksOneAhead hsign (greedy_run _ _)
      (splits_run _ _) (Or.inl (advances_run _ _))
  exact (selfDelimiting_one _).greedy_sequence hsigned
    ((splits_one _).optional.sequence (splits_run _ _))
    (Or.inl (Advances.sequence_right _ (advances_run _ _)))

/-- Digits are read where a digit comes first. -/
theorem digits_ne_none_iff {s : List Char} : digits s ≠ none ↔ s.head?.any Char.isDigit = true := by
  rw [digits, run, one_sequence_ne_none_iff]
  cases s with
  | nil => simp
  | cons c s => simp [total_many isDecimal _]

/-- A numeral is read where a digit comes first, or a point and a digit. -/
theorem numeral_ne_none {c : Char} {rest : List Char}
    (h : c.isDigit = true ∨ c = '.' ∧ rest.head?.any Char.isDigit = true) :
    numeral (c :: rest) ≠ none := by
  have hmantissa : mantissa (c :: rest) ≠ none := by
    rw [mantissa, ne_eq, orElse_eq_none_iff, not_and_or,
      sequence_eq_none_iff_of_total (total_optional _)]
    refine h.imp (fun hdigit => digits_ne_none_iff.mpr hdigit) ?_
    rintro ⟨rfl, hdigit⟩
    exact one_sequence_ne_none_iff.mpr ⟨'.', rest, rfl, rfl, digits_ne_none_iff.mpr hdigit⟩
  have hdecimal : decimal (c :: rest) ≠ none := by
    rwa [decimal, ne_eq,
      sequence_eq_none_iff_of_total ((total_optional _).sequence total_bigMark)]
  rw [numeral, ne_eq, orElse_eq_none_iff, orElse_eq_none_iff, orElse_eq_none_iff]
  exact fun hnone => hdecimal hnone.2.2.2

/-- Digits are refused before all texts that are alike or before none. -/
theorem digits_eq_none_iff_of_alike {s other : List Char} (h : Alike s other) :
    digits s = none ↔ digits other = none := by
  rw [← not_iff_not]
  show digits s ≠ none ↔ digits other ≠ none
  rw [digits_ne_none_iff, digits_ne_none_iff,
    h.any_head fun _ => Identifier.isDigit_eq_false_of_isStart]

theorem isStart_of_isExponentMark {c : Char} (h : isExponentMark c = true) :
    Identifier.isStart c = true := by
  rw [isExponentMark, Bool.or_eq_true, beq_iff_eq, beq_iff_eq] at h
  rcases h with rfl | rfl <;> rfl

theorem isStart_eq_false_of_isSign {c : Char} (h : isSign c = true) :
    Identifier.isStart c = false := by
  rw [isSign, Bool.or_eq_true, beq_iff_eq, beq_iff_eq] at h
  rcases h with rfl | rfl <;> rfl

/-- A text with the same first character as a text that has one. -/
theorem exists_cons_of_head? {c : Char} {s rest : List Char} (h : s.head? = (c :: rest).head?) :
    ∃ t, s = c :: t := by
  cases s with
  | nil => cases h
  | cons d s =>
      cases h
      exact ⟨s, rfl⟩

/-- An exponent is refused before all texts that are closely alike or before none. -/
theorem exponent_eq_none_of_closelyAlike {s other : List Char} (h : CloselyAlike s other)
    (hs : exponent s = none) : exponent other = none := by
  by_contra hother
  obtain ⟨c, rest', rfl, hmark, hrest'⟩ := one_sequence_ne_none_iff.mp hother
  obtain ⟨rest, rfl⟩ := exists_cons_of_head? h.head
  refine absurd hs (one_sequence_ne_none_iff.mpr ⟨c, rest, rfl, hmark, ?_⟩)
  have hhead := h.second (isStart_of_isExponentMark hmark)
  have htail : Alike rest rest' := h.tail
  intro hrest
  cases rest' with
  | nil => exact hrest' rfl
  | cons g last' =>
      obtain ⟨last, rfl⟩ := exists_cons_of_head? hhead
      refine hrest' (optional_one_sequence_eq_none_iff.mpr ?_)
      rcases optional_one_sequence_eq_none_iff.mp hrest with ⟨hsign, hlast⟩ | ⟨hsign, hlast⟩
      · obtain ⟨t, ht, halike⟩ := htail.tail (isStart_eq_false_of_isSign hsign)
        cases ht
        exact Or.inl ⟨hsign, (digits_eq_none_iff_of_alike halike).mp hlast⟩
      · exact Or.inr ⟨hsign, decidesByHead_digits (g :: last) _ rfl hlast⟩

/-- A radix mark is read where a digit of that radix comes behind a zero and the mark. -/
theorem radix_ne_none_iff {lower upper : Char} {digit : Char → Bool} {s : List Char} :
    radix lower upper digit s ≠ none ↔
      ∃ c d rest, s = '0' :: c :: d :: rest ∧ (c = lower ∨ c = upper) ∧ digit d = true := by
  have hrun : ∀ rest, sequence (run digit digit) bigMark rest ≠ none ↔
      ∃ d last, rest = d :: last ∧ digit d = true := by
    intro rest
    rw [ne_eq, sequence_eq_none_iff_of_total total_bigMark, run, ← ne_eq,
      one_sequence_ne_none_iff]
    simp [total_many digit _]
  simp only [radix, exactly, one_sequence_ne_none_iff, hrun, beq_iff_eq, Bool.or_eq_true]
  constructor
  · rintro ⟨_, _, rfl, rfl, c, _, rfl, hc, d, rest, rfl, hd⟩
    exact ⟨c, d, rest, rfl, hc, hd⟩
  · rintro ⟨c, d, rest, rfl, hc, hd⟩
    exact ⟨_, _, rfl, rfl, c, _, rfl, hc, d, rest, rfl, hd⟩

/-- Where a zero is not followed by the mark of a radix and a digit, it is not by a text alike. -/
theorem radix_eq_none_of_closelyAlike {lower upper : Char} {digit : Char → Bool}
    {t s other : List Char} (hlower : Identifier.isStart lower = true)
    (hupper : Identifier.isStart upper = true) (ht : t ≠ [])
    (h : CloselyAlike s other) (hs : radix lower upper digit (t ++ s) = none) :
    radix lower upper digit (t ++ other) = none := by
  by_contra hother
  obtain ⟨c, d, rest, htext, hc, hd⟩ := radix_ne_none_iff.mp hother
  have hstart : Identifier.isStart c = true := by rcases hc with rfl | rfl <;> assumption
  refine absurd hs (radix_ne_none_iff.mpr ?_)
  obtain ⟨hhead, _, hsecond⟩ := h
  -- What is taken for sure is the zero, the zero and the mark, or goes up to the digit.
  match t with
  | [] => exact absurd rfl ht
  | [_] =>
      cases htext
      obtain ⟨s, rfl⟩ := exists_cons_of_head? hhead
      obtain ⟨s, rfl⟩ := exists_cons_of_head? (hsecond hstart)
      exact ⟨c, d, s, rfl, hc, hd⟩
  | [_, _] =>
      cases htext
      obtain ⟨s, rfl⟩ := exists_cons_of_head? hhead
      exact ⟨c, d, s, rfl, hc, hd⟩
  | _ :: _ :: _ :: t =>
      cases htext
      exact ⟨c, d, t ++ s, rfl, hc, hd⟩

/-- Only one character is the mark of a big integer. -/
theorem eq_of_bigMark {s t rest : List Char} (h : bigMark s = some (t, rest)) (hne : t ≠ []) :
    t = ['n'] := by
  rcases optional_eq_some_iff.mp h with h | ⟨_, hnil, _⟩
  · exact (exactly_eq_some_iff.mp h).1
  · exact absurd hnil hne

/-- A decimal numeral is read again before a text that is closely alike. -/
theorem decimal_congr {t s other : List Char} (h : CloselyAlike s other)
    (hs : decimal (t ++ s) = some (t, s)) : decimal (t ++ other) = some (t, other) := by
  have hsplits : Splits (sequence (optional exponent) bigMark) :=
    splits_exponent.optional.sequence splits_bigMark
  obtain ⟨u, v, mid, rfl, hu, hv⟩ := sequence_eq_some_iff.mp hs
  have hmid : v ++ s = mid := hsplits _ _ _ hv
  subst hmid
  rw [List.append_assoc] at hu ⊢
  refine sequence_eq_some_iff.mpr ⟨u, v, v ++ other, rfl,
    looksOneAhead_mantissa _ _ _ hu (head?_append_congr fun _ => h.head), ?_⟩
  obtain ⟨e, b, mid, rfl, he, hb⟩ := sequence_eq_some_iff.mp hv
  have hmid : b ++ s = mid := splits_bigMark _ _ _ hb
  subst hmid
  rw [List.append_assoc] at he ⊢
  refine sequence_eq_some_iff.mpr ⟨e, b, b ++ other, rfl, ?_,
    looksOneAhead_bigMark _ _ _ hb h.head⟩
  rw [optional_eq_some_iff] at he ⊢
  rcases he with he | ⟨hrefused, rfl, _⟩
  · exact Or.inl (looksOneAhead_exponent _ _ _ he (head?_append_congr fun _ => h.head))
  · refine Or.inr ⟨?_, rfl, rfl⟩
    rw [List.nil_append] at hrefused ⊢
    cases b with
    | nil => exact exponent_eq_none_of_closelyAlike h hrefused
    | cons c b =>
        -- The mark of a big integer begins no exponent.
        cases eq_of_bigMark hb (List.cons_ne_nil _ _)
        rfl

/-- A numeral is read again before a text that is closely alike to the one behind it. -/
theorem numeral_congr {t s other : List Char} (h : CloselyAlike s other)
    (hs : numeral (t ++ s) = some (t, s)) : numeral (t ++ other) = some (t, other) := by
  have hne : t ≠ [] := advances_numeral _ _ _ hs
  have hradix : ∀ {lower upper : Char} {digit : Char → Bool} {m : Matcher Char},
      Identifier.isStart lower = true → Identifier.isStart upper = true →
      (m (t ++ s) = some (t, s) → m (t ++ other) = some (t, other)) →
      orElse (radix lower upper digit) m (t ++ s) = some (t, s) →
      orElse (radix lower upper digit) m (t ++ other) = some (t, other) := by
    intro lower upper digit m hlower hupper hm htaken
    rw [orElse_eq_some_iff] at htaken ⊢
    rcases htaken with htaken | ⟨hrefused, htaken⟩
    · exact Or.inl (looksOneAhead_radix _ _ _ _ _ _ htaken h.head)
    · exact Or.inr ⟨radix_eq_none_of_closelyAlike hlower hupper hne h hrefused, hm htaken⟩
  exact hradix rfl rfl (hradix rfl rfl (hradix rfl rfl (decimal_congr h))) hs

theorem greedy_decimal : Greedy decimal := by
  have hend : Greedy (sequence (optional exponent) bigMark) := by
    refine greedy_exponent.optional.sequence greedy_bigMark splits_bigMark ?_ (Or.inr total_bigMark)
    intro u v rest other hne hu hv
    rw [optional_eq_some_iff] at hu ⊢
    rcases hu with hu | ⟨_, rfl, _⟩
    · exact Or.inl (looksOneAhead_exponent.keeps other hne hu)
    · rw [eq_of_bigMark hv hne]
      exact Or.inr ⟨rfl, rfl, rfl⟩
  exact greedy_mantissa.sequence_of_looksOneAhead looksOneAhead_mantissa hend
    (splits_exponent.optional.sequence splits_bigMark)
    (Or.inr ((total_optional _).sequence total_bigMark))

/-- Of a zero and the mark of a radix without digits behind it only the zero is a numeral. -/
def TakesZeroBefore (c : Char) (m : Matcher Char) : Prop :=
  ∀ rest, m ('0' :: c :: rest) = some (['0'], c :: rest)

theorem takesZeroBefore_radix {lower upper c : Char} {digit : Char → Bool} {m : Matcher Char}
    (hc : (c == lower || c == upper) = false) (hm : TakesZeroBefore c m) :
    TakesZeroBefore c (orElse (radix lower upper digit) m) := by
  intro rest
  refine orElse_eq_some_iff.mpr (Or.inr ⟨?_, hm rest⟩)
  by_contra hradix
  obtain ⟨_, _, _, htext, hmark, _⟩ := radix_ne_none_iff.mp hradix
  cases htext
  simp only [Bool.or_eq_false_iff, beq_eq_false_iff_ne] at hc
  rcases hmark with rfl | rfl
  · exact hc.1 rfl
  · exact hc.2 rfl

/-- A numeral with a radix mark, or without, is greedy where the other matchers are. -/
theorem greedy_radix_orElse {lower upper : Char} {digit : Char → Bool} {m : Matcher Char}
    (hm : Greedy m) (hadvances : Advances m) (hlower : TakesZeroBefore lower m)
    (hupper : TakesZeroBefore upper m) : Greedy (orElse (radix lower upper digit) m) := by
  refine (greedy_radix lower upper digit).orElse hm fun t rest other w last _ ht hw => ?_
  obtain ⟨c, d, s, htext, hc, _⟩ := radix_ne_none_iff.mp (hw ▸ Option.some_ne_none (w, last))
  have hzero : TakesZeroBefore c m := by rcases hc with rfl | rfl <;> assumption
  match t with
  | [] => exact absurd rfl (hadvances _ _ _ ht)
  | [z] =>
      have hsplit := splits_radix lower upper digit _ _ _ hw
      obtain ⟨e, w, rfl⟩ := List.exists_cons_of_ne_nil ((advances_one _).sequence _ _ _ hw)
      obtain ⟨rfl, _⟩ := List.cons.inj hsplit
      exact ⟨w, rfl⟩
  | z :: y :: t =>
      obtain ⟨hz, htail⟩ := List.cons.inj htext
      obtain ⟨hy, _⟩ := List.cons.inj htail
      rw [hz, hy, List.cons_append, List.cons_append, hzero (t ++ rest)] at ht
      cases ht

/-- The mark of a radix goes on with no decimal numeral. -/
theorem takesZeroBefore_decimal {c : Char} (hc : c ∈ ['x', 'X', 'o', 'O', 'b', 'B']) :
    TakesZeroBefore c decimal := by
  intro rest
  simp only [List.mem_cons, List.not_mem_nil, or_false] at hc
  rcases hc with rfl | rfl | rfl | rfl | rfl | rfl <;> rfl

/-- The other marks go on with no binary numeral either. -/
theorem takesZeroBefore_binary {c : Char} (hc : c ∈ ['x', 'X', 'o', 'O']) (digit : Char → Bool) :
    TakesZeroBefore c (orElse (radix 'b' 'B' digit) decimal) := by
  have hmark : (c == 'b' || c == 'B') = false := by
    simp only [List.mem_cons, List.not_mem_nil, or_false] at hc
    rcases hc with rfl | rfl | rfl | rfl <;> rfl
  exact takesZeroBefore_radix hmark (takesZeroBefore_decimal (List.mem_append_left ['b', 'B'] hc))

/-- The mark of a hexadecimal numeral goes on with no octal one either. -/
theorem takesZeroBefore_octal {c : Char} (hc : c ∈ ['x', 'X']) (digit digit' : Char → Bool) :
    TakesZeroBefore c (orElse (radix 'o' 'O' digit) (orElse (radix 'b' 'B' digit') decimal)) := by
  have hmark : (c == 'o' || c == 'O') = false := by
    simp only [List.mem_cons, List.not_mem_nil, or_false] at hc
    rcases hc with rfl | rfl <;> rfl
  exact takesZeroBefore_radix hmark
    (takesZeroBefore_binary (List.mem_append_left ['o', 'O'] hc) digit')

/-- A numeral is never read shorter than it can be. -/
theorem greedy_numeral : Greedy numeral := by
  have hadvances : Advances decimal := advances_mantissa.sequence
  have hbinary : Greedy (orElse (radix 'b' 'B' fun c => c == '0' || c == '1' || c == '_') _) :=
    greedy_radix_orElse greedy_decimal hadvances (takesZeroBefore_decimal (by decide))
      (takesZeroBefore_decimal (by decide))
  have hoctal : Greedy (orElse (radix 'o' 'O' fun c => ('0' ≤ c && c ≤ '7') || c == '_') _) :=
    greedy_radix_orElse hbinary ((advances_one _).sequence.orElse hadvances)
      (takesZeroBefore_binary (by decide) _) (takesZeroBefore_binary (by decide) _)
  exact greedy_radix_orElse hoctal
    ((advances_one _).sequence.orElse ((advances_one _).sequence.orElse hadvances))
    (takesZeroBefore_octal (by decide) _ _) (takesZeroBefore_octal (by decide) _ _)

/-- The character may stand in a numeral. -/
def isNumeralPart (c : Char) : Bool :=
  isHexDigit c || ['_', '.', '+', '-', 'n', 'x', 'X', 'o', 'O'].contains c

theorem isNumeralPart_of_isHexDigit (c : Char) (h : isHexDigit c = true) :
    isNumeralPart c = true := by
  rw [isNumeralPart, h, Bool.true_or]

theorem isNumeralPart_of_isDigit (c : Char) (h : c.isDigit = true) : isNumeralPart c = true :=
  isNumeralPart_of_isHexDigit c (by rw [isHexDigit, h, Bool.true_or, Bool.true_or])

theorem isNumeralPart_of_isOctal (c : Char) (h : ('0' ≤ c && c ≤ '7') = true) :
    isNumeralPart c = true := by
  rw [Bool.and_eq_true, decide_eq_true_eq, decide_eq_true_eq] at h
  refine isNumeralPart_of_isDigit c ?_
  rw [Char.isDigit, Bool.and_eq_true, decide_eq_true_eq, decide_eq_true_eq]
  exact ⟨h.1, Nat.le_trans h.2 (by decide)⟩

/-- Either of two characters that may stand in a numeral may. -/
theorem isNumeralPart_of_either {a b : Char} (ha : isNumeralPart a = true)
    (hb : isNumeralPart b = true) (c : Char) (h : (c == a || c == b) = true) :
    isNumeralPart c = true := by
  rcases Bool.or_eq_true_iff.mp h with h | h
  · rwa [eq_of_beq h]
  · rwa [eq_of_beq h]

/-- The separator may stand among the digits. -/
theorem isNumeralPart_of_separated {digit : Char → Bool}
    (hdigit : ∀ c, digit c = true → isNumeralPart c = true) (c : Char)
    (h : (digit c || c == '_') = true) : isNumeralPart c = true := by
  rcases Bool.or_eq_true_iff.mp h with h | h
  · exact hdigit c h
  · rw [eq_of_beq h]
    rfl

theorem takesOnly_bigMark : TakesOnly isNumeralPart bigMark := (takesOnly_exactly rfl).optional

theorem takesOnly_radix {lower upper : Char} {digit : Char → Bool}
    (hlower : isNumeralPart lower = true) (hupper : isNumeralPart upper = true)
    (hdigit : ∀ c, digit c = true → isNumeralPart c = true) :
    TakesOnly isNumeralPart (radix lower upper fun c => digit c || c == '_') := by
  have hdigits := isNumeralPart_of_separated hdigit
  exact (takesOnly_exactly rfl).sequence
    ((takesOnly_one (isNumeralPart_of_either hlower hupper)).sequence
      ((takesOnly_run hdigits hdigits).sequence takesOnly_bigMark))

theorem takesOnly_decimal : TakesOnly isNumeralPart decimal := by
  have hdecimal := isNumeralPart_of_separated isNumeralPart_of_isDigit
  have hpoint : TakesOnly isNumeralPart (exactly '.') := takesOnly_exactly rfl
  have hdigits : TakesOnly isNumeralPart digits := takesOnly_run isNumeralPart_of_isDigit hdecimal
  have hmantissa : TakesOnly isNumeralPart mantissa :=
    (hdigits.sequence (hpoint.sequence (takesOnly_many hdecimal)).optional).orElse
      (hpoint.sequence hdigits)
  have hexponent : TakesOnly isNumeralPart exponent :=
    (takesOnly_one (isNumeralPart_of_either rfl rfl)).sequence
      ((takesOnly_one (isNumeralPart_of_either rfl rfl)).optional.sequence hdigits)
  exact hmantissa.sequence (hexponent.optional.sequence takesOnly_bigMark)

/-- A numeral holds only characters that may stand in one. -/
theorem takesOnly_numeral : TakesOnly isNumeralPart numeral := by
  have hbinary : ∀ c : Char, (c == '0' || c == '1') = true → isNumeralPart c = true :=
    isNumeralPart_of_either rfl rfl
  exact (takesOnly_radix rfl rfl isNumeralPart_of_isHexDigit).orElse
    ((takesOnly_radix rfl rfl isNumeralPart_of_isOctal).orElse
      ((takesOnly_radix rfl rfl hbinary).orElse takesOnly_decimal))

end Respell.Numeral
