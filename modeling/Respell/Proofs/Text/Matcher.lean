import Respell.Text.Matcher

/-!
# Matchers before another rest of the text

A token keeps its end when the text behind it is changed, as long as the change does not concern
what its matcher looks at. `SelfDelimiting` states of a matcher that it looks at nothing behind what
it takes; a literal with a closing mark is matched so. A repetition looks at one more symbol, and
`many_eq_some_iff` says what that symbol must be. At the end a scan is followed symbol by symbol:
`scan_eq_some_iff` states that it takes the first part of a text with which it finishes.
-/

namespace Respell.Text.Matcher

variable {α : Type}

/-- What the matcher takes does not depend on what comes behind it. -/
def SelfDelimiting (m : Matcher α) : Prop :=
  ∀ t rest other, m (t ++ rest) = some (t, rest) → m (t ++ other) = some (t, other)

theorem selfDelimiting_one (p : α → Bool) : SelfDelimiting (one p) := by
  intro t rest other h
  cases t with
  | nil => exact absurd rfl (advances_one p _ _ _ h)
  | cons c t =>
      rw [List.cons_append, one] at h
      split at h
      · rename_i hc
        cases h
        simp [one, hc]
      · cases h

theorem selfDelimiting_exactly [BEq α] (a : α) : SelfDelimiting (exactly a) := selfDelimiting_one _

/-- A matcher of one symbol takes a symbol that it accepts. -/
theorem one_eq_some_iff {p : α → Bool} {s t rest : List α} :
    one p s = some (t, rest) ↔ ∃ c, t = [c] ∧ p c = true ∧ s = c :: rest := by
  cases s with
  | nil => simp [one]
  | cons c s =>
      rw [one]
      split
      · rename_i hc
        constructor
        · intro h
          cases h
          exact ⟨c, rfl, hc, rfl⟩
        · rintro ⟨d, rfl, _, hs⟩
          cases hs
          rfl
      · rename_i hc
        refine iff_of_false (fun h => Option.some_ne_none _ h.symm) ?_
        rintro ⟨d, _, hd, hs⟩
        cases hs
        exact hc hd

/-- What is matched by one symbol is that symbol. -/
theorem exactly_eq_some_iff [BEq α] [LawfulBEq α] {a : α} {s t rest : List α} :
    exactly a s = some (t, rest) ↔ t = [a] ∧ s = a :: rest := by
  cases s with
  | nil => simp [exactly, one]
  | cons c s =>
      rw [exactly, one]
      by_cases hc : c = a
      · subst hc
        simp [eq_comm]
      · simp [hc]

/-- A sequence takes a text in two parts. -/
theorem sequence_eq_some_iff {first second : Matcher α} {s t rest : List α} :
    sequence first second s = some (t, rest) ↔
      ∃ u v mid, t = u ++ v ∧ first s = some (u, mid) ∧ second mid = some (v, rest) := by
  rw [sequence]
  constructor
  · intro h
    split at h
    · cases h
    · rename_i u mid hfirst
      split at h
      · cases h
      · rename_i v last hsecond
        cases h
        exact ⟨u, v, mid, rfl, hfirst, hsecond⟩
  · rintro ⟨u, v, mid, rfl, hfirst, hsecond⟩
    simp only [hfirst, hsecond]

theorem SelfDelimiting.sequence {first second : Matcher α} (hfirst : SelfDelimiting first)
    (hsecond : SelfDelimiting second) (hsplits : Splits second) :
    SelfDelimiting (sequence first second) := by
  intro t rest other h
  obtain ⟨u, v, mid, rfl, hu, hv⟩ := sequence_eq_some_iff.mp h
  have hmid : v ++ rest = mid := hsplits _ _ _ hv
  subst hmid
  rw [List.append_assoc] at hu ⊢
  exact sequence_eq_some_iff.mpr ⟨u, v, v ++ other, rfl, hfirst _ _ _ hu, hsecond _ _ _ hv⟩

/-- Three matchers in sequence may be grouped either way. -/
theorem sequence_assoc (first second third : Matcher α) :
    sequence (sequence first second) third = sequence first (sequence second third) := by
  funext s
  simp only [sequence]
  cases first s with
  | none => rfl
  | some result =>
      obtain ⟨u, mid⟩ := result
      dsimp only
      cases second mid with
      | none => rfl
      | some result =>
          obtain ⟨v, last⟩ := result
          dsimp only
          cases third last with
          | none => rfl
          | some result =>
              dsimp only
              rw [List.append_assoc]

/-- A scan that finishes takes at least one symbol and looks at none behind the last. -/
theorem scanFrom_before {σ : Type} {step : σ → α → Move σ} {state : σ} {taken s u rest : List α}
    (h : scanFrom step state taken s = some (u, rest)) :
    ∃ t, t ≠ [] ∧ u = taken.reverse ++ t ∧ s = t ++ rest ∧
      ∀ other, scanFrom step state taken (t ++ other) = some (u, other) := by
  induction s generalizing state taken with
  | nil => cases h
  | cons c s ih =>
      rw [scanFrom] at h
      split at h
      · rename_i next hstep
        obtain ⟨t, _, hu, hs, hother⟩ := ih h
        refine ⟨c :: t, List.cons_ne_nil _ _, by simpa using hu, by rw [hs]; rfl, fun other => ?_⟩
        rw [List.cons_append, scanFrom, hstep]
        exact hother other
      · rename_i hstep
        cases h
        refine ⟨[c], List.cons_ne_nil _ _, by simp, rfl, fun other => ?_⟩
        rw [List.cons_append, scanFrom, hstep]
        rfl
      · cases h

theorem selfDelimiting_scan {σ : Type} (step : σ → α → Move σ) (state : σ) :
    SelfDelimiting (scan step state) := by
  intro t rest other h
  obtain ⟨u, _, hu, _, hother⟩ := scanFrom_before h
  rw [List.reverse_nil, List.nil_append] at hu
  subst hu
  exact hother other

/-- A repetition takes symbols of one kind, and the next symbol is not of that kind. -/
theorem many_eq_some_iff {p : α → Bool} {s t rest : List α} :
    many p s = some (t, rest) ↔
      s = t ++ rest ∧ (∀ c ∈ t, p c = true) ∧ rest.head?.any p = false := by
  constructor
  · intro h
    cases h
    refine ⟨List.takeWhile_append_dropWhile.symm, List.all_eq_true.mp List.all_takeWhile, ?_⟩
    cases hdrop : s.dropWhile p with
    | nil => rfl
    | cons c rest =>
        have hnot := List.head?_dropWhile_not p s
        rw [hdrop] at hnot
        simpa using hnot
  · rintro ⟨rfl, hall, hrest⟩
    have hstop : rest.takeWhile p = [] ∧ rest.dropWhile p = rest := by
      cases rest with
      | nil => exact ⟨rfl, rfl⟩
      | cons c rest =>
          rw [List.head?_cons, Option.any_some] at hrest
          simp [hrest]
    rw [many, List.takeWhile_append_of_pos hall, List.dropWhile_append_of_pos hall, hstop.1,
      hstop.2, List.append_nil]

/-- Behind a repetition at the end of a sequence no more symbol of its kind follows. -/
theorem head?_any_of_sequence_many {first : Matcher α} {p : α → Bool} {s t rest : List α}
    (h : sequence first (many p) s = some (t, rest)) : rest.head?.any p = false := by
  obtain ⟨_, _, _, _, _, hmany⟩ := sequence_eq_some_iff.mp h
  exact (many_eq_some_iff.mp hmany).2.2

/-- A sequence with a repetition at its end takes the same before every text that begins with a
symbol of another kind. -/
theorem SelfDelimiting.sequence_many {first : Matcher α} (hfirst : SelfDelimiting first)
    {p : α → Bool} {t rest other : List α}
    (h : Matcher.sequence first (many p) (t ++ rest) = some (t, rest))
    (hother : other.head?.any p = false) :
    Matcher.sequence first (many p) (t ++ other) = some (t, other) := by
  obtain ⟨u, v, mid, rfl, hu, hmany⟩ := sequence_eq_some_iff.mp h
  obtain ⟨rfl, hall, _⟩ := many_eq_some_iff.mp hmany
  rw [List.append_assoc] at hu ⊢
  exact sequence_eq_some_iff.mpr ⟨u, v, v ++ other, rfl, hfirst _ _ _ hu,
    many_eq_some_iff.mpr ⟨rfl, hall, hother⟩⟩

/-- A repetition is over where a symbol of another kind has to follow. -/
theorem selfDelimiting_many_exactly [BEq α] [LawfulBEq α] {p : α → Bool} {a : α}
    (ha : p a = false) : SelfDelimiting (sequence (many p) (exactly a)) := by
  intro t rest other h
  obtain ⟨u, v, mid, rfl, hmany, hlast⟩ := sequence_eq_some_iff.mp h
  refine sequence_eq_some_iff.mpr ⟨u, v, v ++ other, rfl, ?_, ?_⟩
  · obtain ⟨_, hall, _⟩ := many_eq_some_iff.mp hmany
    refine many_eq_some_iff.mpr ⟨List.append_assoc _ _ _, hall, ?_⟩
    cases mid with
    | nil => cases hlast
    | cons c mid =>
        rw [exactly, one] at hlast
        split at hlast
        · rename_i hc
          cases hlast
          rw [eq_of_beq hc]
          exact ha
        · cases hlast
  · have hv : v ++ rest = mid := splits_exactly a _ _ _ hlast
    subst hv
    exact selfDelimiting_exactly a _ _ _ hlast

/-- Of two matchers that never begin with the same symbol the choice is clear from the first one. -/
theorem SelfDelimiting.orElse {first second : Matcher α} (hfirst : SelfDelimiting first)
    (hsecond : SelfDelimiting second) (hadvances : Advances second)
    (hapart : ∀ c s, second (c :: s) ≠ none → ∀ other, first (c :: other) = none) :
    SelfDelimiting (orElse first second) := by
  intro t rest other h
  rw [Matcher.orElse] at h
  split at h
  · rename_i result hresult
    rw [h] at hresult
    rw [Matcher.orElse, hfirst _ _ _ hresult]
  · cases t with
    | nil => exact absurd rfl (hadvances _ _ _ h)
    | cons c t =>
        rw [Matcher.orElse, List.cons_append, hapart c (t ++ rest) (by
          rw [← List.cons_append, h]
          exact Option.some_ne_none _)]
        exact hsecond _ _ _ h

/-- What a matcher took, with one more symbol before it. -/
def prepend (c : α) (r : List α × List α) : List α × List α := (c :: r.1, r.2)

/-- A symbol and then what the second matcher takes. -/
theorem exactly_sequence [BEq α] [LawfulBEq α] (c : α) (m : Matcher α) (s : List α) :
    sequence (exactly c) m (c :: s) = (m s).map (prepend c) := by
  rw [sequence, exactly, one, if_pos (beq_self_eq_true c)]
  cases hm : m s <;> simp [hm, prepend]

section Scan

variable {σ : Type} {step : σ → α → Move σ} {state : σ} {c : α} {s : List α}

/-- The symbols already taken come before what a scan takes from there on. -/
theorem scanFrom_taken (step : σ → α → Move σ) (state : σ) (taken base s : List α) :
    scanFrom step state (taken ++ base) s =
      (scanFrom step state taken s).map fun r => (base.reverse ++ r.1, r.2) := by
  induction s generalizing state taken with
  | nil => rfl
  | cons c s ih =>
      rw [scanFrom, scanFrom]
      cases step state c with
      | go next => exact ih next (c :: taken)
      | finish => simp
      | refuse => rfl

/-- A scan that goes on takes the symbol and what it takes in the next state. -/
theorem scan_go {q : σ} (h : step state c = .go q) :
    scan step state (c :: s) = (scan step q s).map (prepend c) := by
  rw [scan, scanFrom, h]
  exact scanFrom_taken step q [] [c] s

/-- The last symbol that a scan takes is one with which it finishes. -/
theorem scanFrom_last {taken u rest : List α}
    (h : scanFrom step state taken s = some (u, rest)) :
    ∃ q d, u.getLast? = some d ∧ step q d = .finish := by
  induction s generalizing state taken with
  | nil => cases h
  | cons c s ih =>
      rw [scanFrom] at h
      split at h
      · exact ih h
      · rename_i hstep
        cases h
        exact ⟨state, c, by simp, hstep⟩
      · cases h

/-- States that read the next symbol alike scan a text alike. -/
theorem scan_congr {other : σ} (h : ∀ c ∈ s.head?, step state c = step other c) :
    scan step state s = scan step other s := by
  cases s with
  | nil => rfl
  | cons c s => rw [scan, scan, scanFrom, scanFrom, h c rfl]

/-- The scan from `state` goes through the whole text and finishes with its last symbol. -/
def Finishes (step : σ → α → Move σ) : σ → List α → Prop
  | _, [] => False
  | state, c :: t =>
    match step state c with
    | .go next => Finishes step next t
    | .finish => t = []
    | .refuse => False

/-- Where the scan goes on, the next state has to finish. -/
theorem finishes_go {q : σ} (h : step state c = .go q) :
    Finishes step state (c :: s) ↔ Finishes step q s := by
  rw [Finishes, h]

/-- Where the scan finishes, nothing is left. -/
theorem finishes_finish (h : step state c = .finish) :
    Finishes step state (c :: s) ↔ s = [] := by
  rw [Finishes, h]

/-- A symbol that is refused stands in no text that the scan goes through. -/
theorem not_finishes_refuse (h : step state c = .refuse) : ¬ Finishes step state (c :: s) := by
  rw [Finishes, h]
  exact not_false

/-- States that read the next symbol alike finish alike. -/
theorem finishes_congr {other : σ} (h : ∀ c ∈ s.head?, step state c = step other c) :
    Finishes step state s ↔ Finishes step other s := by
  cases s with
  | nil => exact Iff.rfl
  | cons c s => rw [Finishes, Finishes, h c rfl]

/-- A first part with which a scan finishes has the first symbol of the text. -/
theorem append_finishes_iff {t rest : List α} : c :: s = t ++ rest ∧ Finishes step state t ↔
    ∃ u, t = c :: u ∧ s = u ++ rest ∧ Finishes step state (c :: u) := by
  constructor
  · rintro ⟨htext, hfinishes⟩
    cases t with
    | nil => exact hfinishes.elim
    | cons d u =>
        obtain ⟨rfl, rfl⟩ := List.cons.inj htext
        exact ⟨u, rfl, rfl, hfinishes⟩
  · rintro ⟨u, rfl, rfl, hfinishes⟩
    exact ⟨rfl, hfinishes⟩

/-- A scan takes the first part of the text with which it finishes. -/
theorem scan_eq_some_iff {t rest : List α} :
    scan step state s = some (t, rest) ↔ s = t ++ rest ∧ Finishes step state t := by
  induction s generalizing state t with
  | nil =>
      refine iff_of_false (fun h => by cases h) ?_
      rintro ⟨htext, hfinishes⟩
      obtain ⟨rfl, _⟩ := List.append_eq_nil_iff.mp htext.symm
      exact hfinishes
  | cons c s ih =>
      rw [append_finishes_iff]
      cases hstep : step state c with
      | go q =>
          simp only [finishes_go hstep, scan_go hstep, Option.map_eq_some_iff, Prod.exists]
          constructor
          · rintro ⟨u, last, hu, hresult⟩
            cases hresult
            exact ⟨u, rfl, ih.mp hu⟩
          · rintro ⟨u, rfl, hu⟩
            exact ⟨u, rest, ih.mpr hu, rfl⟩
      | finish =>
          have hscan : scan step state (c :: s) = some ([c], s) := by
            rw [scan, scanFrom, hstep]
            rfl
          simp only [finishes_finish hstep, hscan, Option.some.injEq, Prod.mk.injEq]
          constructor
          · rintro ⟨rfl, rfl⟩
            exact ⟨[], rfl, rfl, rfl⟩
          · rintro ⟨u, rfl, rfl, rfl⟩
            exact ⟨rfl, rfl⟩
      | refuse =>
          have hscan : scan step state (c :: s) = none := by rw [scan, scanFrom, hstep]
          rw [hscan]
          refine iff_of_false (fun h => by cases h) ?_
          rintro ⟨u, _, _, hfinishes⟩
          exact not_finishes_refuse hstep hfinishes

end Scan

end Respell.Text.Matcher
