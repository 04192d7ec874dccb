import Respell.Token.Numeral
import Respell.Identifier

/-!
# Words

A word is the longest run of the characters of a name, among which characters may be written as
escapes of their code points. `scan` reads one and tells whether an escape occurred in it; an escape
that is not complete refuses the word. `append_of_scan` states that a word and what follows it are
together the text.
-/

namespace Respell.Word

open Text Text.Matcher

/-- The digits of an escape: any number of hexadecimal ones in braces, or exactly four. -/
def escapeDigits : Matcher Char :=
  let hex := one Numeral.isHexDigit
  orElse (sequence (exactly '{') (sequence (run Numeral.isHexDigit Numeral.isHexDigit) (exactly '}')))
    (sequence hex (sequence hex (sequence hex hex)))

/-- The escape of a character by its code point. -/
def escape : Matcher Char := sequence (exactly '\\') (sequence (exactly 'u') escapeDigits)

theorem splits_escape : Splits escape := by
  have hhex := splits_one Numeral.isHexDigit
  exact (splits_one _).sequence ((splits_one _).sequence
    (((splits_one _).sequence ((splits_run _ _).sequence (splits_one _))).orElse
      (hhex.sequence (hhex.sequence (hhex.sequence hhex)))))

theorem advances_escape : Advances escape := (advances_one _).sequence

/-- A word that has been read: its text, whether an escape occurs in it, and the rest. -/
structure Scanned where
  text : List Char
  escaped : Bool
  rest : List Char
  deriving DecidableEq, Repr

/-- The word that goes on with the given text, after the characters in `taken`, the latest first.
When an escape is not complete, the error is the part of the word before it. -/
def scanFrom (taken : List Char) (escaped : Bool) (s : List Char) :
    Except (List Char) Scanned :=
  match s with
  | [] => .ok ⟨taken.reverse, escaped, []⟩
  | c :: rest =>
    if Identifier.isPart c then scanFrom (c :: taken) escaped rest
    else if c = '\\' ∧ rest.head? = some 'u' then
      match _ : escape (c :: rest) with
      | none => .error taken.reverse
      | some (t, after) => scanFrom (t.reverse ++ taken) true after
    else .ok ⟨taken.reverse, escaped, c :: rest⟩
termination_by s.length
decreasing_by
  · simp
  · exact length_lt splits_escape advances_escape (by assumption)

/-- The word that begins the text. -/
def scan (s : List Char) : Except (List Char) Scanned := scanFrom [] false s

/-- The characters already taken come first in the word. -/
theorem append_of_scanFrom {taken : List Char} {escaped : Bool} {s : List Char} {w : Scanned}
    (h : scanFrom taken escaped s = .ok w) : w.text ++ w.rest = taken.reverse ++ s := by
  fun_induction scanFrom taken escaped s with
  | case1 => cases h; rfl
  | case2 taken escaped c rest hpart ih => simpa using ih h
  | case3 => cases h
  | case4 taken escaped c rest hpart hmark t after hescape ih =>
      rw [ih h, List.reverse_append, List.reverse_reverse, List.append_assoc,
        splits_escape _ _ _ hescape]
  | case5 => cases h; rfl

/-- A word and the rest after it are together the text. -/
theorem append_of_scan {s : List Char} {w : Scanned} (h : scan s = .ok w) :
    w.text ++ w.rest = s := append_of_scanFrom h

/-- The characters already taken are part of the word. -/
theorem length_le_of_scanFrom {taken : List Char} {escaped : Bool} {s : List Char} {w : Scanned}
    (h : scanFrom taken escaped s = .ok w) : taken.length ≤ w.text.length := by
  fun_induction scanFrom taken escaped s with
  | case1 => cases h; simp
  | case2 taken escaped c rest hpart ih => exact Nat.le_of_succ_le (ih h)
  | case3 => cases h
  | case4 taken escaped c rest hpart hmark t after hescape ih =>
      have := ih h
      rw [List.length_append] at this
      omega
  | case5 => cases h; simp

/-- A word that begins with a character of a name, or with an escape, is not empty. -/
theorem text_ne_nil_of_scan {c : Char} {rest : List Char} {w : Scanned}
    (hbegin : Identifier.isPart c = true ∨ c = '\\' ∧ rest.head? = some 'u')
    (h : scan (c :: rest) = .ok w) : w.text ≠ [] := by
  rw [scan, scanFrom] at h
  intro hnil
  split at h
  · have := length_le_of_scanFrom h
    simp [hnil] at this
  · rename_i hpart
    rw [if_pos (hbegin.resolve_left hpart)] at h
    split at h
    · cases h
    · rename_i t after hescape
      -- An escape at the beginning is already part of the word.
      have := length_le_of_scanFrom h
      have hpos := List.length_pos_iff.mpr (advances_escape _ _ _ hescape)
      simp [hnil] at this
      rw [this] at hpos
      simp at hpos

end Respell.Word
