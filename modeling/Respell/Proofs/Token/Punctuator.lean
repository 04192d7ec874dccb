import Mathlib.Data.List.Find
import Respell.Proofs.Token.Alike
import Respell.Token.Punctuator

/-!
# Where a punctuator ends

Which punctuator begins a text is a question of the marks that begin it. A punctuator is read again
where it still begins the text and no other mark does so now, which `punctuator_of_imp` states. No
mark has a character that begins a name, so this is the case before a text that is alike to the one
behind it up to a word, which `punctuator_congr` states.
-/

namespace Respell.Punctuator

open Text

/-- No character of a punctuator begins a name. -/
theorem any_isStart_of_mem_all : ∀ p ∈ all, p.any Identifier.isStart = false := by
  decide +kernel

/-- What is taken where `p` is the first punctuator of the list that begins the text `s`. -/
def taken (p s : List Char) : List Char :=
  if p = optionalAccess ∧ (s.drop 2).head?.any Char.isDigit = true then ['?'] else p

/-- The punctuator that is found begins the text. -/
theorem prefix_of_find?_eq_some {p s : List Char}
    (h : all.find? (·.isPrefixOf s) = some p) : p <+: s := by
  have hp := List.find?_some h
  exact List.isPrefixOf_iff_prefix.mp hp

/-- Where no punctuator is taken, none begins the text. -/
theorem not_prefix_of_eq_none {s : List Char} (h : punctuator s = none) : ∀ p ∈ all, ¬ p <+: s := by
  rw [punctuator] at h
  cases hfind : all.find? (·.isPrefixOf s) with
  | none => simpa [List.isPrefixOf_iff_prefix] using hfind
  | some p =>
      rw [hfind] at h
      dsimp only at h
      split at h <;> cases h

/-- The first punctuator of the list that begins the text is taken, except where a digit follows the
point of optional access. -/
theorem punctuator_eq_some_iff {s t rest : List Char} : punctuator s = some (t, rest) ↔
    ∃ p, all.find? (·.isPrefixOf s) = some p ∧ t = taken p s ∧ s = t ++ rest := by
  rw [punctuator]
  cases hfind : all.find? (·.isPrefixOf s) with
  | none => simp
  | some p =>
      obtain ⟨x, rfl⟩ := prefix_of_find?_eq_some hfind
      simp only [Option.some.injEq, exists_eq_left', taken]
      split
      · rename_i haccess
        rw [haccess.1]
        simp only [optionalAccess, List.cons_append, List.nil_append, List.take_succ_cons,
          List.take_zero, List.drop_succ_cons, List.drop_zero, Option.some.injEq, Prod.mk.injEq]
        constructor
        · rintro ⟨rfl, rfl⟩
          exact ⟨rfl, rfl⟩
        · rintro ⟨rfl, htext⟩
          exact ⟨rfl, (List.cons.inj htext).2⟩
      · rw [List.take_left, List.drop_left, Option.some.injEq, Prod.mk.injEq]
        constructor
        · rintro ⟨rfl, rfl⟩
          exact ⟨rfl, rfl⟩
        · rintro ⟨rfl, htext⟩
          exact ⟨rfl, List.append_cancel_left htext⟩

/-- The same is taken of two texts where a digit stands behind the point of optional access in both
or in none. -/
theorem taken_congr {p s other : List Char} (hbegin : p <+: s)
    (hdigit : ∀ x, s = '?' :: '.' :: x → ∃ y, other = '?' :: '.' :: y ∧
      x.head?.any Char.isDigit = y.head?.any Char.isDigit) : taken p s = taken p other := by
  by_cases hp : p = optionalAccess
  · subst hp
    obtain ⟨x, rfl⟩ := hbegin
    obtain ⟨y, rfl, hxy⟩ := hdigit x rfl
    simp only [taken, optionalAccess, List.cons_append, List.nil_append, List.drop_succ_cons,
      List.drop_zero, hxy]
  · rw [taken, taken, if_neg fun h => hp h.1, if_neg fun h => hp h.1]

/-- No more than a point of the punctuator that is found is left. -/
theorem length_le_taken (p s : List Char) : p.length ≤ (taken p s).length + 1 := by
  rw [taken]
  split
  · rename_i haccess
    rw [haccess.1]
    exact Nat.le_refl _
  · exact Nat.le_succ _

/-- What is found first in a list is found first by every test that holds of it and holds of no more
than the first test. -/
theorem find?_of_imp {α : Type} {l : List α} {p q : α → Bool} {a : α} (h : l.find? p = some a)
    (ha : q a = true) (himp : ∀ b ∈ l, q b = true → p b = true) : l.find? q = some a := by
  obtain ⟨_, front, back, rfl, hfront⟩ := List.find?_eq_some_iff_append.mp h
  refine List.find?_eq_some_iff_append.mpr ⟨ha, front, back, rfl, fun b hb => ?_⟩
  have hb' := hfront b hb
  rw [Bool.not_eq_true', Bool.eq_false_iff] at hb' ⊢
  exact fun hq => hb' (himp b (List.mem_append_left _ hb) hq)

/-- A punctuator is read again where the marks that begin the text, up to one character behind it,
begin the other text too and no other mark does. -/
theorem punctuator_of_imp {t s other : List Char} (hs : punctuator (t ++ s) = some (t, s))
    (hshort : ∀ p ∈ all, p <+: t ++ s → p.length ≤ t.length + 1 → p <+: t ++ other)
    (hmarks : ∀ q ∈ all, q <+: t ++ other → q <+: t ++ s)
    (hdigit : ∀ x, t ++ s = '?' :: '.' :: x → ∃ y, t ++ other = '?' :: '.' :: y ∧
      x.head?.any Char.isDigit = y.head?.any Char.isDigit) :
    punctuator (t ++ other) = some (t, other) := by
  obtain ⟨p, hfind, ht, _⟩ := punctuator_eq_some_iff.mp hs
  have hbegin := prefix_of_find?_eq_some hfind
  have hlength := length_le_taken p (t ++ s)
  rw [← ht] at hlength
  refine punctuator_eq_some_iff.mpr ⟨p, find?_of_imp hfind ?_ fun q hq => ?_,
    ht.trans (taken_congr hbegin hdigit), rfl⟩
  · exact List.isPrefixOf_iff_prefix.mpr (hshort p (List.mem_of_find?_eq_some hfind) hbegin hlength)
  · rw [List.isPrefixOf_iff_prefix, List.isPrefixOf_iff_prefix]
    exact hmarks q hq

/-- A punctuator is read again where the same marks stand at the beginning. -/
theorem punctuator_again {t s other : List Char} (hs : punctuator (t ++ s) = some (t, s))
    (hmarks : ∀ q ∈ all, q.isPrefixOf (t ++ s) = q.isPrefixOf (t ++ other))
    (hdigit : ∀ x, t ++ s = '?' :: '.' :: x → ∃ y, t ++ other = '?' :: '.' :: y ∧
      x.head?.any Char.isDigit = y.head?.any Char.isDigit) :
    punctuator (t ++ other) = some (t, other) := by
  have hsame (q : List Char) (hq : q ∈ all) : q <+: t ++ s ↔ q <+: t ++ other := by
    rw [← List.isPrefixOf_iff_prefix, hmarks q hq, List.isPrefixOf_iff_prefix]
  exact punctuator_of_imp hs (fun p hp hbegin _ => (hsame p hp).mp hbegin)
    (fun q hq hprefix => (hsame q hq).mpr hprefix) hdigit

/-- A punctuator is read again before a text that is alike to the one behind it. -/
theorem punctuator_congr {t s other : List Char} (h : Alike s other)
    (hs : punctuator (t ++ s) = some (t, s)) : punctuator (t ++ other) = some (t, other) := by
  have halike := h.append t
  refine punctuator_again hs
    (fun q hq => halike.isPrefixOf (any_isStart_of_mem_all q hq)) fun x hx => ?_
  rw [hx] at halike
  obtain ⟨_, htext, ht⟩ := halike.tail rfl
  obtain ⟨y, rfl, hy⟩ := ht.tail rfl
  exact ⟨y, htext, hy.any_head fun _ => Identifier.isDigit_eq_false_of_isStart⟩

end Respell.Punctuator
