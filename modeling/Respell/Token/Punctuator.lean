import Respell.Text.Matcher

/-!
# Punctuators

Of the punctuators that begin a text the longest is taken. The one exception is a question mark and
a point before a digit, where the point belongs to a numeral and the question mark stands alone.
-/

namespace Respell.Punctuator

open Text Text.Matcher

/-- The punctuators. No one stands before a longer one that begins with it. -/
def all : List (List Char) :=
  [['>', '>', '>', '='],
   ['.', '.', '.'], ['=', '=', '='], ['!', '=', '='], ['*', '*', '='], ['<', '<', '='],
   ['>', '>', '='], ['>', '>', '>'], ['&', '&', '='], ['|', '|', '='], ['?', '?', '='],
   ['=', '>'], ['=', '='], ['!', '='], ['<', '='], ['>', '='], ['&', '&'], ['|', '|'], ['?', '?'],
   ['?', '.'], ['+', '+'], ['-', '-'], ['+', '='], ['-', '='], ['*', '='], ['/', '='], ['%', '='],
   ['&', '='], ['|', '='], ['^', '='], ['<', '<'], ['>', '>'], ['*', '*'],
   ['{'], ['}'], ['('], [')'], ['['], [']'], [';'], [','], ['<'], ['>'], ['+'], ['-'], ['*'], ['/'],
   ['%'], ['&'], ['|'], ['^'], ['!'], ['~'], ['?'], [':'], ['='], ['.'], ['@']]

/-- The punctuator of optional access. -/
def optionalAccess : List Char := ['?', '.']

/-- The punctuator that begins the text. -/
def punctuator : Matcher Char := fun s =>
  match all.find? (·.isPrefixOf s) with
  | none => none
  | some p =>
    if p = optionalAccess ∧ (s.drop 2).head?.any Char.isDigit then some (s.take 1, s.drop 1)
    else some (s.take p.length, s.drop p.length)

/-- No punctuator is empty. -/
theorem ne_nil_of_mem_all {p : List Char} (h : p ∈ all) : p ≠ [] := by
  intro hp
  subst hp
  revert h
  decide

theorem splits_punctuator : Splits punctuator := by
  intro s t rest h
  rw [punctuator] at h
  split at h
  · cases h
  · split at h <;> · cases h; exact List.take_append_drop _ _

theorem advances_punctuator : Advances punctuator := by
  intro s t rest h
  rw [punctuator] at h
  split at h
  · cases h
  · rename_i p hp
    have hs : s ≠ [] := by
      intro hs
      subst hs
      have hmatch := List.find?_some hp
      have hmem := List.mem_of_find?_eq_some hp
      cases p with
      | nil => exact ne_nil_of_mem_all hmem rfl
      | cons c cs => simp at hmatch
    obtain ⟨c, cs, rfl⟩ := List.exists_cons_of_ne_nil hs
    split at h
    · cases h
      simp
    · cases h
      have hlen : p.length ≠ 0 := by
        have := ne_nil_of_mem_all (List.mem_of_find?_eq_some hp)
        simpa using this
      obtain ⟨n, hn⟩ := Nat.exists_eq_succ_of_ne_zero hlen
      simp [hn]

end Respell.Punctuator
