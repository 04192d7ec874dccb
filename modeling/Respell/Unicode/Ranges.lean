/-!
# Sets of code points

A property of characters is given by an ascending list of closed ranges of code points. Membership
walks the list and stops at the first range that begins beyond the code point, so that it is cheap
for the characters with small code points. `covers_eq_true_iff` states that for an ascending list
this is membership in one of the ranges.
-/

namespace Respell.Unicode

/-- Closed ranges of code points, in ascending order and without overlap. -/
abbrev Ranges := List (Nat × Nat)

namespace Ranges

/-- `covers ranges n` is true when `n` lies in one of the ranges. -/
def covers : Ranges → Nat → Bool
  | [], _ => false
  | (lo, hi) :: rest, n => if n < lo then false else if n ≤ hi then true else covers rest n

/-- No range is empty, and every range is followed only by ranges that begin after its end. -/
def Ascending : Ranges → Prop
  | [] => True
  | (lo, hi) :: rest => lo ≤ hi ∧ (∀ r ∈ rest, hi < r.1) ∧ Ascending rest

/-- In an ascending list, `covers` finds exactly the code points of the ranges. -/
theorem covers_eq_true_iff {ranges : Ranges} (h : Ascending ranges) (n : Nat) :
    covers ranges n = true ↔ ∃ r ∈ ranges, r.1 ≤ n ∧ n ≤ r.2 := by
  induction ranges with
  | nil => simp [covers]
  | cons r rest ih =>
      obtain ⟨lo, hi⟩ := r
      obtain ⟨hle, hnext, hrest⟩ := h
      simp only [covers, List.mem_cons]
      by_cases hlo : n < lo
      · simp only [if_pos hlo, Bool.false_eq_true, false_iff]
        rintro ⟨s, hs | hs, hmin, hmax⟩
        · subst hs
          omega
        · have := hnext s hs
          omega
      · by_cases hhi : n ≤ hi
        · simp only [if_neg hlo, if_pos hhi, true_iff]
          exact ⟨(lo, hi), Or.inl rfl, by omega, hhi⟩
        · simp only [if_neg hlo, if_neg hhi, ih hrest]
          constructor
          · rintro ⟨s, hs, hb⟩
            exact ⟨s, Or.inr hs, hb⟩
          · rintro ⟨s, hs | hs, hmin, hmax⟩
            · subst hs
              omega
            · exact ⟨s, hs, hmin, hmax⟩

end Ranges

end Respell.Unicode
