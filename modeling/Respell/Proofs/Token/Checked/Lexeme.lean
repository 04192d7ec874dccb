import Respell.Proofs.Token.Checked.Trivia
import Respell.Proofs.Token.Checked.Word
import Respell.Proofs.Token.Numeral
import Respell.Proofs.Token.Punctuator

/-!
# Checked lexemes

The checked lexer reads the token that `Lexeme.read` reads, with its kind and its end, and no check
fails on the way. A numeral has no fault: the first characters that make the lexer look for one are
enough for one, which is `Numeral.numeral_ne_none`.
-/

namespace Respell.Checked

open Text Text.Matcher

variable {v : Vocabulary} {ctx : Context} {text s : List Char} {start : Nat} {c : Char}

/-- A numeral is found, and it is not empty. -/
theorem numeral_eq {t rest : List Char} (h : behind? start text = some s)
    (ht : Numeral.numeral s = some (t, rest)) :
    numeral text start = some (start + byteLength t) := by
  have hpos : 0 < byteLength t := byteLength_pos (Numeral.advances_numeral _ _ _ ht)
  simp only [numeral, h, ht, Option.bind_eq_bind, Option.bind_some, if_pos hpos]

/-- The text of a punctuator is found where its matcher takes one. -/
theorem punctuatorText_eq (s : List Char) :
    punctuatorText s = some ((Punctuator.punctuator s).map Prod.fst) := by
  rw [punctuatorText, Punctuator.punctuator]
  cases hfind : Punctuator.all.find? (·.isPrefixOf s) with
  | none =>
      -- The question mark is one of the punctuators.
      have hquestion := List.find?_eq_none.mp hfind ['?'] (by decide)
      simp only [if_neg hquestion]
      rfl
  | some p =>
      obtain ⟨rest, rfl⟩ := Punctuator.prefix_of_find?_eq_some hfind
      dsimp only
      by_cases haccess : p = Punctuator.optionalAccess
      · subst haccess
        have hbehind : behind? 2 (Punctuator.optionalAccess ++ rest) = some rest :=
          behind?_add (t := ['?', '.']) (behind?_zero _)
        have hdrop : (Punctuator.optionalAccess ++ rest).drop 2 = rest := rfl
        simp only [hbehind, hdrop, reduceIte, Option.bind_eq_bind, Option.bind_some, true_and]
        split
        · rfl
        · rfl
      · rw [if_neg haccess, if_neg fun h => haccess h.1, Option.map_some, List.take_left]

/-- A punctuator is found where its matcher takes one. -/
theorem punctuator_eq (h : behind? start text = some s) : punctuator c text start =
    some (ending (.unexpected c) start start (Punctuator.punctuator s)) := by
  simp only [punctuator, h, punctuatorText_eq, Option.bind_eq_bind, Option.bind_some]
  cases Punctuator.punctuator s with
  | none => rfl
  | some result => rfl

/-- What is found of a lexeme that begins at the offset `start`: its kind and its end, or the fault
with its offset. -/
def lexed (start : Nat) : Except LexemeFault Lexeme → Found (TokenKind × Nat)
  | .ok l => .ok (l.kind, start + byteLength l.text)
  | .error e => .error (e.fault, start + byteLength e.before)

/-- A matcher finds the lexeme of its kind. -/
theorem map_ending (kind : TokenKind) (fault : LexicalFault) (start : Nat) (m : Matcher Char)
    (s : List Char) : (ending fault start start (m s)).map (kind, ·) =
      lexed start (Lexeme.ofMatcher kind fault m s) := by
  rw [Lexeme.ofMatcher]
  cases m s with
  | none => rfl
  | some result => rfl

/-- The lexeme is found that is read. -/
theorem lexeme_eq (h : behind? start text = some (c :: s)) :
    lexeme v ctx c text start (Lexeme.form v ctx c s.head?) =
      some (lexed start (Lexeme.read v ctx c s)) := by
  rw [Lexeme.read_eq_readForm]
  cases hform : Lexeme.form v ctx c s.head? with
  | string =>
      rw [lexeme, string_eq c h, Option.map_some, map_ending, Lexeme.readForm]
  | template =>
      rw [lexeme, template_eq h, Option.map_some, map_ending, Lexeme.readForm]
  | privateName =>
      obtain ⟨rfl, _⟩ := Lexeme.begins_of_form hform
      obtain ⟨t, rest, ht, hstop⟩ := privateName_eq h
      rw [lexeme, hstop, Option.map_some, Lexeme.readForm, Lexeme.ofMatcher, ht]
      rfl
  | word =>
      rw [lexeme, word_eq v ctx h, Lexeme.readForm]
      cases Lexeme.word v ctx (c :: s) with
      | ok l => rfl
      | error e => rfl
  | numeral =>
      have hbegins := Lexeme.begins_of_form hform
      obtain ⟨⟨t, rest⟩, ht⟩ := Option.ne_none_iff_exists'.mp (Numeral.numeral_ne_none hbegins)
      rw [lexeme, numeral_eq h ht, Option.map_some, Lexeme.readForm, Lexeme.ofMatcher, ht]
      rfl
  | regex =>
      obtain ⟨rfl, _⟩ := Lexeme.begins_of_form hform
      rw [lexeme, regex_eq h, Option.map_some, map_ending, Lexeme.readForm]
  | punctuator =>
      rw [lexeme, punctuator_eq h, Option.map_some, map_ending, Lexeme.readForm]

end Respell.Checked
