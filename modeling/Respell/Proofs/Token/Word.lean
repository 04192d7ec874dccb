import Mathlib.Tactic.ByContra
import Respell.Proofs.Text.Greedy
import Respell.Token.Word

/-!
# Where a word ends

A word goes on as long as characters of a name or escapes follow, so it depends on the text behind
it only through `continues`. `scan_append` states that a word is read again before every text with
which it does not go on, and `scan_plain` that the characters of a name are read as a word without
an escape. `escape_eq_none_iff` says which escapes are not complete.
-/

namespace Respell.Word

open Text Text.Matcher

/-- A word goes on with this text. -/
def continues (s : List Char) : Bool := s.head?.any Identifier.isPart || ['\\', 'u'].isPrefixOf s

/-- The digits of an escape end with the fourth or with the closing brace. -/
theorem selfDelimiting_escapeDigits : SelfDelimiting escapeDigits := by
  have hhex := selfDelimiting_one Numeral.isHexDigit
  have hsplits := splits_one Numeral.isHexDigit
  have hbraced : SelfDelimiting (sequence (exactly '{')
      (sequence (run Numeral.isHexDigit Numeral.isHexDigit) (exactly '}'))) := by
    rw [run, sequence_assoc]
    have hrest : Splits (sequence (many Numeral.isHexDigit) (exactly '}')) :=
      (splits_many _).sequence (splits_exactly _)
    exact (selfDelimiting_exactly _).sequence
      (hhex.sequence (selfDelimiting_many_exactly rfl) hrest) (hsplits.sequence hrest)
  have hfour : SelfDelimiting (sequence (one Numeral.isHexDigit) (sequence (one Numeral.isHexDigit)
      (sequence (one Numeral.isHexDigit) (one Numeral.isHexDigit)))) :=
    hhex.sequence (hhex.sequence (hhex.sequence hhex hsplits) (hsplits.sequence hsplits))
      (hsplits.sequence (hsplits.sequence hsplits))
  refine hbraced.orElse hfour (advances_one _).sequence ?_
  -- A brace is no digit.
  intro c s hdigit other
  have hc : Numeral.isHexDigit c = true := by
    by_contra hc
    simp [Matcher.sequence, one, hc] at hdigit
  have hne : c ≠ '{' := by
    rintro rfl
    cases hc
  simp [Matcher.sequence, exactly, one, hne]

/-- An escape ends with its digits or with its closing brace. -/
theorem selfDelimiting_escape : SelfDelimiting escape := by
  have hdigits : Splits escapeDigits :=
    ((splits_exactly _).sequence ((splits_run _ _).sequence (splits_exactly _))).orElse
      ((splits_one _).sequence ((splits_one _).sequence ((splits_one _).sequence (splits_one _))))
  exact (selfDelimiting_exactly _).sequence
    ((selfDelimiting_exactly _).sequence selfDelimiting_escapeDigits hdigits)
    ((splits_exactly _).sequence hdigits)

section Escape

variable {s t rest : List Char}

/-- The digits in braces. -/
theorem braced_eq_some_iff :
    sequence (run Numeral.isHexDigit Numeral.isHexDigit) (exactly '}') s = some (t, rest) ↔
      ∃ a, a ≠ [] ∧ (∀ c ∈ a, Numeral.isHexDigit c = true) ∧ t = a ++ ['}'] ∧
        s = a ++ '}' :: rest := by
  rw [run, sequence_assoc]
  constructor
  · intro h
    obtain ⟨u, v, mid, rfl, hu, hv⟩ := sequence_eq_some_iff.mp h
    obtain ⟨c, rfl, hc, rfl⟩ := one_eq_some_iff.mp hu
    obtain ⟨w, x, last, rfl, hw, hx⟩ := sequence_eq_some_iff.mp hv
    obtain ⟨rfl, hall, _⟩ := many_eq_some_iff.mp hw
    obtain ⟨rfl, rfl⟩ := exactly_eq_some_iff.mp hx
    exact ⟨c :: w, List.cons_ne_nil _ _, List.forall_mem_cons.mpr ⟨hc, hall⟩, rfl, rfl⟩
  · rintro ⟨a, hne, hall, rfl, rfl⟩
    obtain ⟨c, a, rfl⟩ := List.exists_cons_of_ne_nil hne
    obtain ⟨hc, hall⟩ := List.forall_mem_cons.mp hall
    refine sequence_eq_some_iff.mpr ⟨[c], a ++ ['}'], a ++ '}' :: rest, rfl,
      one_eq_some_iff.mpr ⟨c, rfl, hc, rfl⟩, sequence_eq_some_iff.mpr ⟨a, ['}'], '}' :: rest, rfl,
        many_eq_some_iff.mpr ⟨rfl, hall, rfl⟩, exactly_eq_some_iff.mpr ⟨rfl, rfl⟩⟩⟩

/-- Four digits. -/
theorem four_eq_some_iff :
    sequence (one Numeral.isHexDigit) (sequence (one Numeral.isHexDigit)
      (sequence (one Numeral.isHexDigit) (one Numeral.isHexDigit))) s = some (t, rest) ↔
      t.length = 4 ∧ (∀ c ∈ t, Numeral.isHexDigit c = true) ∧ s = t ++ rest := by
  constructor
  · intro h
    obtain ⟨_, _, _, rfl, hfirst, h⟩ := sequence_eq_some_iff.mp h
    obtain ⟨_, _, _, rfl, hsecond, h⟩ := sequence_eq_some_iff.mp h
    obtain ⟨_, _, _, rfl, hthird, hfourth⟩ := sequence_eq_some_iff.mp h
    obtain ⟨a, rfl, ha, rfl⟩ := one_eq_some_iff.mp hfirst
    obtain ⟨b, rfl, hb, rfl⟩ := one_eq_some_iff.mp hsecond
    obtain ⟨c, rfl, hc, rfl⟩ := one_eq_some_iff.mp hthird
    obtain ⟨d, rfl, hd, rfl⟩ := one_eq_some_iff.mp hfourth
    exact ⟨rfl, by simp [ha, hb, hc, hd], rfl⟩
  · rintro ⟨hlength, hall, rfl⟩
    match t, hlength with
    | [a, b, c, d], _ =>
      simp only [List.forall_mem_cons] at hall
      simp [Matcher.sequence, one, hall]

/-- An escape is its mark and the digits. -/
theorem escape_mark (s : List Char) :
    escape ('\\' :: 'u' :: s) = (escapeDigits s).map (prepend '\\' ∘ prepend 'u') := by
  rw [escape, exactly_sequence, exactly_sequence, Option.map_map]

/-- The digits that a brace opens are those before the next closing one. -/
theorem escapeDigits_brace (s : List Char) : escapeDigits ('{' :: s) =
    (sequence (run Numeral.isHexDigit Numeral.isHexDigit) (exactly '}') s).map (prepend '{') := by
  rw [escapeDigits, orElse, exactly_sequence]
  cases sequence (run Numeral.isHexDigit Numeral.isHexDigit) (exactly '}') s with
  | none => rfl
  | some result => rfl

/-- Without an opening brace there are four digits. -/
theorem escapeDigits_of_ne_brace (h : s.head? ≠ some '{') : escapeDigits s =
    sequence (one Numeral.isHexDigit) (sequence (one Numeral.isHexDigit)
      (sequence (one Numeral.isHexDigit) (one Numeral.isHexDigit))) s := by
  have hbrace : sequence (exactly '{')
      (sequence (run Numeral.isHexDigit Numeral.isHexDigit) (exactly '}')) s = none := by
    by_contra hsome
    obtain ⟨c, rest, rfl, hc, _⟩ := one_sequence_ne_none_iff.mp hsome
    exact h (congrArg some (eq_of_beq hc))
  rw [escapeDigits, orElse, hbrace]

/-- An escape is not complete when behind its mark stand neither four digits nor digits in braces. -/
theorem escape_eq_none_iff : escape ('\\' :: 'u' :: s) = none ↔
    (¬ ∃ digits rest, s = digits ++ rest ∧ digits.length = 4 ∧
      ∀ c ∈ digits, Numeral.isHexDigit c = true) ∧
    ¬ ∃ digits rest, s = '{' :: (digits ++ '}' :: rest) ∧ digits ≠ [] ∧
      ∀ c ∈ digits, Numeral.isHexDigit c = true := by
  rw [escape_mark, Option.map_eq_none_iff, escapeDigits, orElse_eq_none_iff, and_comm]
  refine and_congr (not_iff_not.mp ?_) (not_iff_not.mp ?_)
  · rw [not_not, ← ne_eq, Option.ne_none_iff_exists']
    constructor
    · rintro ⟨⟨t, rest⟩, h⟩
      obtain ⟨hlength, hall, rfl⟩ := four_eq_some_iff.mp h
      exact ⟨t, rest, rfl, hlength, hall⟩
    · rintro ⟨t, rest, rfl, hlength, hall⟩
      exact ⟨(t, rest), four_eq_some_iff.mpr ⟨hlength, hall, rfl⟩⟩
  · rw [not_not, exactly, ← ne_eq, one_sequence_ne_none_iff]
    constructor
    · rintro ⟨c, more, rfl, hc, hbraced⟩
      obtain ⟨⟨t, rest⟩, h⟩ := Option.ne_none_iff_exists'.mp hbraced
      obtain ⟨digits, hne, hall, rfl, rfl⟩ := braced_eq_some_iff.mp h
      exact ⟨digits, rest, by rw [eq_of_beq hc], hne, hall⟩
    · rintro ⟨digits, rest, rfl, hne, hall⟩
      refine ⟨'{', _, rfl, rfl, ?_⟩
      rw [braced_eq_some_iff.mpr ⟨digits, hne, hall, rfl, rfl⟩]
      exact Option.some_ne_none _

end Escape

/-- The scan takes a character of a name. -/
theorem scanFrom_part {c : Char} (h : Identifier.isPart c = true) (taken : List Char)
    (escaped : Bool) (rest : List Char) :
    scanFrom taken escaped (c :: rest) = scanFrom (c :: taken) escaped rest := by
  rw [scanFrom, if_pos h]

/-- The scan takes an escape. -/
theorem scanFrom_escape {t after : List Char} (taken : List Char) (escaped : Bool)
    {s : List Char} (h : escape s = some (t, after)) :
    scanFrom taken escaped s = scanFrom (t.reverse ++ taken) true after := by
  obtain ⟨c, rest, rfl⟩ : ∃ c rest, s = c :: rest := by
    cases s with
    | nil => cases h
    | cons c rest => exact ⟨c, rest, rfl⟩
  have hc : c = '\\' := by
    by_contra hc
    simp [escape, Matcher.sequence, exactly, one, hc] at h
  subst hc
  have hu : rest.head? = some 'u' := by
    cases rest with
    | nil => cases h
    | cons d rest =>
        by_contra hd
        have : d ≠ 'u' := fun hd' => hd (by rw [hd']; rfl)
        simp [escape, Matcher.sequence, exactly, one, this] at h
  have hbackslash : Identifier.isPart '\\' = false := by decide
  rw [scanFrom, hbackslash, if_neg Bool.false_ne_true, if_pos ⟨rfl, hu⟩]
  split
  · rename_i hnone
    rw [h] at hnone
    cases hnone
  · rename_i u mid hsome
    cases h.symm.trans hsome
    rfl

/-- The scan ends before a text with which the word does not go on. -/
theorem scanFrom_stop {s : List Char} (h : continues s = false) (taken : List Char)
    (escaped : Bool) : scanFrom taken escaped s = .ok ⟨taken.reverse, escaped, s⟩ := by
  cases s with
  | nil => rw [scanFrom]
  | cons c rest =>
      rw [continues, Bool.or_eq_false_iff] at h
      obtain ⟨hpart, hmark⟩ := h
      have hnot : ¬ (c = '\\' ∧ rest.head? = some 'u') := by
        rintro ⟨rfl, hu⟩
        cases rest with
        | nil => cases hu
        | cons d rest =>
            cases hu
            cases hmark
      rw [scanFrom, if_neg (by simpa using hpart), if_neg hnot]

/-- The word does not go on where its scan ended. -/
theorem continues_rest_of_scanFrom {taken : List Char} {escaped : Bool} {s : List Char}
    {w : Scanned} (h : scanFrom taken escaped s = .ok w) : continues w.rest = false := by
  fun_induction scanFrom taken escaped s with
  | case1 => cases h; rfl
  | case2 taken escaped c rest hpart ih => exact ih h
  | case3 => cases h
  | case4 taken escaped c rest hpart hmark t after hescape ih => exact ih h
  | case5 taken escaped c rest hpart hmark =>
      cases h
      rw [continues, Bool.or_eq_false_iff]
      refine ⟨by simpa using hpart, ?_⟩
      cases rest with
      | nil => simp [List.isPrefixOf]
      | cons d rest =>
          by_contra hbegin
          simp only [List.isPrefixOf, Bool.not_eq_false, Bool.and_eq_true, beq_iff_eq] at hbegin
          exact hmark ⟨hbegin.1.symm, by rw [← hbegin.2.1]; rfl⟩

/-- What a scan takes, it takes before every text with which the word does not go on. -/
theorem scanFrom_append {taken : List Char} {escaped : Bool} {s : List Char} {w : Scanned}
    (h : scanFrom taken escaped s = .ok w) {other : List Char} (hother : continues other = false) :
    ∃ t, s = t ++ w.rest ∧
      scanFrom taken escaped (t ++ other) = .ok ⟨w.text, w.escaped, other⟩ := by
  fun_induction scanFrom taken escaped s with
  | case1 taken escaped =>
      cases h
      exact ⟨[], rfl, scanFrom_stop hother _ _⟩
  | case2 taken escaped c rest hpart ih =>
      obtain ⟨t, ht, hscan⟩ := ih h
      exact ⟨c :: t, by rw [ht]; rfl, (scanFrom_part hpart _ _ _).trans hscan⟩
  | case3 => cases h
  | case4 taken escaped c rest hpart hmark u after hescape ih =>
      obtain ⟨t, ht, hscan⟩ := ih h
      have hsplit := splits_escape _ _ _ hescape
      refine ⟨u ++ t, by rw [← hsplit, ht, List.append_assoc], ?_⟩
      rw [← hsplit] at hescape
      have hagain := selfDelimiting_escape _ _ (t ++ other) hescape
      rw [List.append_assoc, scanFrom_escape _ _ hagain]
      exact hscan
  | case5 taken escaped c rest hpart hmark =>
      cases h
      exact ⟨[], rfl, scanFrom_stop hother _ _⟩

/-- A word is read again before every text with which it does not go on. -/
theorem scan_append {t rest other : List Char} {escaped : Bool}
    (h : scan (t ++ rest) = .ok ⟨t, escaped, rest⟩) (hother : continues other = false) :
    scan (t ++ other) = .ok ⟨t, escaped, other⟩ := by
  obtain ⟨u, hu, hscan⟩ := scanFrom_append h hother
  cases List.append_cancel_right hu
  exact hscan

/-- The characters of a name are read as a word without an escape. -/
theorem scanFrom_plain {t : List Char} (h : ∀ c ∈ t, Identifier.isPart c = true) {rest : List Char}
    (hrest : continues rest = false) (taken : List Char) (escaped : Bool) :
    scanFrom taken escaped (t ++ rest) = .ok ⟨taken.reverse ++ t, escaped, rest⟩ := by
  induction t generalizing taken with
  | nil => rw [List.nil_append, List.append_nil, scanFrom_stop hrest]
  | cons c t ih =>
      rw [List.cons_append, scanFrom_part (h c List.mem_cons_self),
        ih fun d hd => h d (List.mem_cons_of_mem _ hd)]
      simp

theorem scan_plain {t : List Char} (h : ∀ c ∈ t, Identifier.isPart c = true) {rest : List Char}
    (hrest : continues rest = false) : scan (t ++ rest) = .ok ⟨t, false, rest⟩ :=
  scanFrom_plain h hrest [] false

/-- After an escape the word counts as escaped. -/
theorem escaped_of_scanFrom {taken : List Char} {escaped : Bool} {s : List Char} {w : Scanned}
    (h : scanFrom taken escaped s = .ok w) (hescaped : escaped = true) : w.escaped = true := by
  fun_induction scanFrom taken escaped s with
  | case1 => cases h; exact hescaped
  | case2 taken escaped c rest hpart ih => exact ih h hescaped
  | case3 => cases h
  | case4 taken escaped c rest hpart hmark t after hescape ih => exact ih h rfl
  | case5 => cases h; exact hescaped

/-- An escape begins with a backslash. -/
theorem backslash_mem_of_escape {s t rest : List Char} (h : escape s = some (t, rest)) :
    '\\' ∈ t := by
  obtain ⟨u, v, mid, rfl, hmark, _⟩ := sequence_eq_some_iff.mp h
  rw [(exactly_eq_some_iff.mp hmark).1]
  exact List.mem_cons_self

/-- A word that counts as escaped has a backslash in it. -/
theorem backslash_mem_of_scanFrom {taken : List Char} {escaped : Bool} {s : List Char}
    {w : Scanned} (h : scanFrom taken escaped s = .ok w) (hescaped : w.escaped = true)
    (htaken : escaped = true → '\\' ∈ taken) : '\\' ∈ w.text := by
  fun_induction scanFrom taken escaped s with
  | case1 => cases h; exact List.mem_reverse.mpr (htaken hescaped)
  | case2 taken escaped c rest hpart ih =>
      exact ih h fun hmark => List.mem_cons_of_mem _ (htaken hmark)
  | case3 => cases h
  | case4 taken escaped c rest hpart hmark t after hescape ih =>
      refine ih h fun _ => List.mem_append_left _ ?_
      exact List.mem_reverse.mpr (backslash_mem_of_escape hescape)
  | case5 => cases h; exact List.mem_reverse.mpr (htaken hescaped)

/-- A word without an escape consists of characters of a name. -/
theorem isPart_of_scanFrom {taken : List Char} {escaped : Bool} {s : List Char} {w : Scanned}
    (h : scanFrom taken escaped s = .ok w) (hplain : w.escaped = false)
    (htaken : ∀ c ∈ taken, Identifier.isPart c = true) :
    ∀ c ∈ w.text, Identifier.isPart c = true := by
  fun_induction scanFrom taken escaped s with
  | case1 => cases h; simpa using htaken
  | case2 taken escaped c rest hpart ih =>
      refine ih h fun d hd => ?_
      rcases List.mem_cons.mp hd with rfl | hd
      · exact hpart
      · exact htaken d hd
  | case3 => cases h
  | case4 taken escaped c rest hpart hmark t after hescape ih =>
      rw [escaped_of_scanFrom h rfl] at hplain
      cases hplain
  | case5 => cases h; simpa using htaken

end Respell.Word
