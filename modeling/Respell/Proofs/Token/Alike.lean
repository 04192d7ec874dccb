import Respell.Proofs.Identifier

/-!
# Texts that are alike up to a word

A respelled text is the text itself up to the first keyword, where both go on with a character that
begins a name. `Alike` relates two such texts. A question about the beginning of a text has the same
answer for both when no character that begins a name matters to it, which `Alike.any_head` and
`Alike.isPrefixOf` state. `CloselyAlike` also asks that the texts do not differ right after a first
character that may begin a word.
-/

namespace Respell

open Identifier

/-- The texts are the same, or they are the same up to where both go on with a character that begins
a name. -/
inductive Alike : List Char → List Char → Prop where
  | nil : Alike [] []
  | cons (c : Char) {s other : List Char} : Alike s other → Alike (c :: s) (c :: other)
  | word {c d : Char} {s other : List Char} :
      isStart c = true → isStart d = true → Alike (c :: s) (d :: other)

namespace Alike

variable {s other : List Char}

theorem refl : ∀ s : List Char, Alike s s
  | [] => .nil
  | c :: s => .cons c (refl s)

theorem append (t : List Char) (h : Alike s other) : Alike (t ++ s) (t ++ other) := by
  induction t with
  | nil => exact h
  | cons c t ih => exact .cons c ih

/-- Two names begin alike, whatever comes behind them. -/
theorem of_isName {t u : List Char} (ht : isName t = true) (hu : isName u = true)
    (s other : List Char) : Alike (t ++ s) (u ++ other) := by
  obtain ⟨c, t, rfl, hc⟩ := exists_cons_of_isName ht
  obtain ⟨d, u, rfl, hd⟩ := exists_cons_of_isName hu
  exact .word hc hd

/-- One text is empty only when the other is. -/
theorem eq_nil_iff (h : Alike s other) : s = [] ↔ other = [] := by
  cases h <;> simp

/-- A property of all characters that begin a name is one of both first characters or of none. -/
theorem any_head_of_start (h : Alike s other) {p : Char → Bool}
    (hp : ∀ c, isStart c = true → p c = true) : s.head?.any p = other.head?.any p := by
  cases h with
  | nil => rfl
  | cons c h => rfl
  | word hc hd =>
      rw [List.head?_cons, List.head?_cons, Option.any_some, Option.any_some, hp _ hc, hp _ hd]

/-- A property of no character that begins a name is one of both first characters or of none. -/
theorem any_head (h : Alike s other) {p : Char → Bool}
    (hp : ∀ c, isStart c = true → p c = false) : s.head?.any p = other.head?.any p := by
  cases h with
  | nil => rfl
  | cons c h => rfl
  | word hc hd =>
      rw [List.head?_cons, List.head?_cons, Option.any_some, Option.any_some, hp _ hc, hp _ hd]

/-- Both first characters may stand in a name or none may. -/
theorem any_head_isPart (h : Alike s other) : s.head?.any isPart = other.head?.any isPart :=
  h.any_head_of_start fun _ => isPart_of_isStart

/-- The first characters are the same unless one of them may stand in a name. -/
theorem head?_eq (h : Alike s other) (hs : s.head?.any isPart = false) :
    s.head? = other.head? := by
  cases h with
  | nil => rfl
  | cons c h => rfl
  | word hc =>
      rw [List.head?_cons, Option.any_some, isPart_of_isStart hc] at hs
      cases hs

/-- Behind a first character that begins no name the texts are alike. -/
theorem tail {c : Char} (h : Alike (c :: s) other) (hc : isStart c = false) :
    ∃ t, other = c :: t ∧ Alike s t := by
  cases h with
  | cons _ h => exact ⟨_, rfl, h⟩
  | word hstart =>
      rw [hc] at hstart
      cases hstart

/-- A mark without characters that begin a name stands before both texts or before none. -/
theorem isPrefixOf (h : Alike s other) {mark : List Char}
    (hmark : mark.any isStart = false) : mark.isPrefixOf s = mark.isPrefixOf other := by
  induction h generalizing mark with
  | nil => rfl
  | cons c _ ih =>
      cases mark with
      | nil => rfl
      | cons d mark =>
          rw [List.any_cons, Bool.or_eq_false_iff] at hmark
          rw [List.isPrefixOf, List.isPrefixOf, ih hmark.2]
  | word hc hd =>
      cases mark with
      | nil => rfl
      | cons e mark =>
          rw [List.any_cons, Bool.or_eq_false_iff] at hmark
          have he := hmark.1
          rw [List.isPrefixOf, List.isPrefixOf, beq_eq_false_iff_ne.mpr (ne_of_isStart hc he).symm,
            beq_eq_false_iff_ne.mpr (ne_of_isStart hd he).symm, Bool.false_and, Bool.false_and]

end Alike

/-- The texts have the same first character and are alike behind it, and when that character begins
a name they also have the same second character. -/
structure CloselyAlike (s other : List Char) : Prop where
  head : s.head? = other.head?
  tail : Alike s.tail other.tail
  second : s.head?.any isStart = true → s.tail.head? = other.tail.head?

namespace CloselyAlike

variable {s other : List Char}

theorem refl (s : List Char) : CloselyAlike s s := ⟨rfl, .refl _, fun _ => rfl⟩

/-- Texts that are alike are closely so behind a character that begins no name. -/
theorem of_not_isStart {c : Char} (h : Alike s other) (hc : isStart c = false) :
    CloselyAlike (c :: s) (c :: other) where
  head := rfl
  tail := h
  second hstart := by
    rw [List.head?_cons, Option.any_some, hc] at hstart
    cases hstart

/-- Texts that are alike are closely so behind two characters. -/
theorem of_two {c d : Char} {t : List Char} (h : Alike s other) :
    CloselyAlike (c :: d :: t ++ s) (c :: d :: t ++ other) :=
  ⟨rfl, .cons d (h.append t), fun _ => rfl⟩

/-- Texts that are alike and have the same first character are closely so behind a character. -/
theorem of_head {c : Char} (h : Alike s other) (hhead : s.head? = other.head?) :
    CloselyAlike (c :: s) (c :: other) := ⟨rfl, h, fun _ => hhead⟩

end CloselyAlike

end Respell
