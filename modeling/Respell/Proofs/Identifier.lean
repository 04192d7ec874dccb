import Respell.Identifier
import Respell.Token.Trivia

/-!
# What is no part of a name

The blanks and the decimal digits are told apart from the characters that begin a name by the tables
of code points. Two neighbours of which one ends a name are never read together, and this rests on
the statements here.
-/

namespace Respell.Identifier

/-- No code point of a blank is that of a letter or of a number. -/
theorem covers_eq_false_of_mem_blank : ∀ r ∈ Unicode.blank, ∀ k < r.2 + 1 - r.1,
    Unicode.alphabetic.covers (r.1 + k) = false ∧ Unicode.numeric.covers (r.1 + k) = false := by
  decide +kernel

/-- The ranges of the blanks are in order. -/
theorem ascending_blank : Unicode.Ranges.Ascending Unicode.blank := by
  simp [Unicode.blank, Unicode.Ranges.Ascending]

/-- No blank is part of a name. -/
theorem isPart_eq_false_of_isBlank {c : Char} (h : Trivia.isBlank c = true) : isPart c = false := by
  rw [Trivia.isBlank, Bool.or_eq_true] at h
  rcases h with h | h
  · obtain ⟨r, hr, hle, hge⟩ := (Unicode.Ranges.covers_eq_true_iff ascending_blank _).mp h
    have hcode := covers_eq_false_of_mem_blank r hr (c.toNat - r.1) (by omega)
    rw [Nat.add_sub_cancel' hle] at hcode
    have hne : ∀ d : Char, Unicode.isBlank d = false → (c == d) = false := by
      intro d hd
      rw [beq_eq_false_iff_ne]
      rintro rfl
      rw [hd] at h
      cases h
    simp [isPart, isStart, Unicode.isAlphabetic, Unicode.isNumeric, hcode, hne '$' rfl,
      hne '_' rfl, hne '\u200C' rfl, hne '\u200D' rfl]
  · rw [beq_iff_eq] at h
    subst h
    decide +kernel

/-- No character that begins a name is a blank. -/
theorem isBlank_eq_false_of_isStart {c : Char} (h : isStart c = true) :
    Trivia.isBlank c = false := by
  cases hblank : Trivia.isBlank c with
  | false => rfl
  | true =>
      have := isPart_eq_false_of_isBlank hblank
      rw [isPart_of_isStart h] at this
      cases this

/-- A letter is not before the capital A in the order of code points. -/
theorem isAlphabetic_eq_false_of_lt {c : Char} (h : c.toNat < 0x41) :
    Unicode.isAlphabetic c = false := by
  rw [Unicode.isAlphabetic, Unicode.alphabetic, Unicode.Ranges.covers, if_pos h]

/-- No decimal digit begins a name. -/
theorem isDigit_eq_false_of_isStart {c : Char} (h : isStart c = true) : c.isDigit = false := by
  cases hdigit : c.isDigit with
  | false => rfl
  | true =>
      have hrange : c.toNat < 0x41 := by
        simp only [Char.isDigit, Bool.and_eq_true, decide_eq_true_eq, ge_iff_le] at hdigit
        have : c.val ≤ 57 := hdigit.2
        have : c.val.toNat ≤ 57 := this
        show c.val.toNat < 0x41
        omega
      have hne : ∀ d : Char, d.isDigit = false → (c == d) = false := by
        intro d hd
        rw [beq_eq_false_iff_ne]
        rintro rfl
        rw [hd] at hdigit
        cases hdigit
      rw [isStart, isAlphabetic_eq_false_of_lt hrange, hne '$' rfl, hne '_' rfl] at h
      cases h

/-- A character that ends a line is a blank. -/
theorem isBlank_of_isLineEnd {c : Char} (h : Literal.isLineEnd c = true) :
    Trivia.isBlank c = true := by
  simp only [Literal.isLineEnd, Bool.or_eq_true, beq_iff_eq] at h
  rcases h with ((rfl | rfl) | rfl) | rfl <;> rfl

/-- A character that begins a name is another one than a character that does not. -/
theorem ne_of_isStart {c d : Char} (h : isStart c = true) (hd : isStart d = false) : c ≠ d := by
  rintro rfl
  rw [h] at hd
  cases hd

/-- Every character of a name is part of one. -/
theorem isPart_of_isName {t : List Char} (h : isName t = true) : ∀ c ∈ t, isPart c = true := by
  cases t with
  | nil => cases h
  | cons d t =>
      rw [isName, Bool.and_eq_true] at h
      intro c hc
      rcases List.mem_cons.mp hc with rfl | hc
      · exact isPart_of_isStart h.1
      · exact List.all_eq_true.mp h.2 c hc

/-- A name has a first character. -/
theorem exists_cons_of_isName {t : List Char} (h : isName t = true) :
    ∃ c rest, t = c :: rest ∧ isStart c = true := by
  cases t with
  | nil => cases h
  | cons c rest =>
      rw [isName, Bool.and_eq_true] at h
      exact ⟨c, rest, rfl, h.1⟩

end Respell.Identifier
