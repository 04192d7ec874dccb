import Respell.Token.Literal

/-!
# Blanks and comments

Between tokens stand blanks, comments to the end of the line, and block comments. `skip` reads as
many of them as there are; a block comment that is never closed is an error. A text that begins with
a hash and an exclamation mark has a first line that is no part of the program, which `skipShebang`
reads.
-/

namespace Respell.Trivia

open Text Text.Matcher Literal

/-- The characters up to the end of the line. -/
def line : Matcher Char := many fun c => !isLineEnd c

/-- The byte order mark counts as a blank. -/
def isBlank (c : Char) : Bool := Unicode.isBlank c || c == '\uFEFF'

/-- The text begins with the mark of a comment that runs to the end of the line. -/
def beginsLineComment (s : List Char) : Bool :=
  ['/', '/'].isPrefixOf s || ['<', '!', '-', '-'].isPrefixOf s

/-- The text begins with the mark of a block comment. -/
def beginsBlockComment (s : List Char) : Bool := ['/', '*'].isPrefixOf s

/-- One blank or comment, or `none` when the text begins with neither or with a block comment that
is never closed. -/
def trivium : Matcher Char := fun s =>
  if beginsLineComment s then line s
  else if beginsBlockComment s then blockComment s
  else one isBlank s

theorem splits_trivium : Splits trivium := by
  intro s t rest h
  rw [trivium] at h
  split at h
  · exact splits_many _ _ _ _ h
  · split at h
    · exact splits_blockComment _ _ _ h
    · exact splits_one _ _ _ _ h

theorem advances_trivium : Advances trivium := by
  intro s t rest h
  rw [trivium] at h
  split at h
  · rename_i hbegin
    cases s with
    | nil => simp [beginsLineComment] at hbegin
    | cons c s =>
        cases h
        have hc : isLineEnd c = false := by
          simp only [beginsLineComment, List.isPrefixOf, Bool.or_eq_true, Bool.and_eq_true,
            beq_iff_eq] at hbegin
          rcases hbegin with hbegin | hbegin <;> (rw [← hbegin.1]; rfl)
        simp [hc]
  · split at h
    · exact (advances_one _).sequence _ _ _ h
    · exact advances_one _ _ _ _ h

/-- The blanks and comments that begin the text, after those in `taken`, the latest first, and the
rest of the text. When a block comment is never closed, the error is what stands before it. -/
def skipFrom (taken : List Char) (s : List Char) : Except (List Char) (List Char × List Char) :=
  match _ : trivium s with
  | some (t, rest) => skipFrom (t.reverse ++ taken) rest
  | none => if beginsBlockComment s then .error taken.reverse else .ok (taken.reverse, s)
termination_by s.length
decreasing_by exact length_lt splits_trivium advances_trivium (by assumption)

/-- The blanks and comments that begin the text, and the rest of the text. -/
def skip (s : List Char) : Except (List Char) (List Char × List Char) := skipFrom [] s

/-- What was taken before comes first in what is skipped. -/
theorem append_of_skipFrom {taken s gap rest : List Char}
    (h : skipFrom taken s = .ok (gap, rest)) : gap ++ rest = taken.reverse ++ s := by
  fun_induction skipFrom taken s with
  | case1 taken s t after htrivium ih =>
      rw [ih h, List.reverse_append, List.reverse_reverse, List.append_assoc,
        splits_trivium _ _ _ htrivium]
  | case2 => cases h
  | case3 => cases h; rfl

/-- What is skipped and the rest are together the text. -/
theorem append_of_skip {s gap rest : List Char} (h : skip s = .ok (gap, rest)) :
    gap ++ rest = s := append_of_skipFrom h

/-- The first line of a text that begins with a hash and an exclamation mark, and the rest. -/
def skipShebang (s : List Char) : List Char × List Char :=
  if ['#', '!'].isPrefixOf s then (s.takeWhile (!isLineEnd ·), s.dropWhile (!isLineEnd ·))
  else ([], s)

end Respell.Trivia
