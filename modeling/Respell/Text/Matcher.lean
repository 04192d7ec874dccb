/-!
# Matchers

A matcher reads a first part of a text and returns it with the rest, or refuses the text. The text
is a list of symbols, which are characters or bytes. Matchers are built from the test of one symbol
by sequence, by ordered choice and by repetition that never gives back what it took; `scan` adds the
ones that are driven by a state, such as a literal that runs to its closing quote.

Every matcher of this module splits the text: what it took and what it left are together the text.
`Splits` states this, and `Splits.sequence` and `Splits.orElse` carry it through the combinations.
-/

namespace Respell.Text

/-- A reader of a first part of a text: the symbols it took and the rest, or `none`. -/
abbrev Matcher (α : Type) := List α → Option (List α × List α)

namespace Matcher

variable {α : Type}

/-- Takes nothing from any text. -/
def nothing : Matcher α := fun s => some ([], s)

/-- Takes one symbol for which `p` holds. -/
def one (p : α → Bool) : Matcher α
  | [] => none
  | c :: rest => if p c then some ([c], rest) else none

/-- Takes the longest first part for whose symbols `p` holds, which may be empty. -/
def many (p : α → Bool) : Matcher α := fun s => some (s.takeWhile p, s.dropWhile p)

/-- Takes what `first` takes and then what `second` takes of the rest. -/
def sequence (first second : Matcher α) : Matcher α := fun s =>
  match first s with
  | none => none
  | some (t, rest) =>
    match second rest with
    | none => none
    | some (u, rest) => some (t ++ u, rest)

/-- Takes what `first` takes, and what `second` takes where `first` refuses. -/
def orElse (first second : Matcher α) : Matcher α := fun s =>
  match first s with
  | some result => some result
  | none => second s

/-- Takes what `m` takes, and nothing where `m` refuses. -/
def optional (m : Matcher α) : Matcher α := orElse m nothing

/-- Takes one symbol for which `first` holds and then all for which `next` holds. -/
def run (first next : α → Bool) : Matcher α := sequence (one first) (many next)

/-- Takes the symbol `a`. -/
def exactly [BEq α] (a : α) : Matcher α := one (· == a)

/-- Takes what `m` takes where the next symbol is one for which `p` holds, and nothing elsewhere. -/
def onlyBefore (p : α → Bool) (m : Matcher α) : Matcher α := fun s =>
  if s.head?.any p then m s else nothing s

/-- Takes nothing, and refuses a text whose next symbol is one for which `p` holds. -/
def notBefore (p : α → Bool) : Matcher α := fun s => if s.head?.any p then none else nothing s

/-- What a scanner does with the next symbol: it takes it and goes on in a new state, takes it as
the last one, or refuses the text. -/
inductive Move (σ : Type) where
  | go (state : σ)
  | finish
  | refuse
  deriving Repr

/-- The scan from `state` with the symbols already taken, the latest first. A text that ends
before the scan has finished is refused. -/
def scanFrom {σ : Type} (step : σ → α → Move σ) (state : σ) (taken : List α) : Matcher α
  | [] => none
  | c :: rest =>
    match step state c with
    | .go next => scanFrom step next (c :: taken) rest
    | .finish => some ((c :: taken).reverse, rest)
    | .refuse => none

/-- Takes symbols as `step` directs, from `state` up to and with the one that finishes. -/
def scan {σ : Type} (step : σ → α → Move σ) (state : σ) : Matcher α := scanFrom step state []

/-- What the matcher takes and what it leaves are together the text. -/
def Splits (m : Matcher α) : Prop := ∀ s t rest, m s = some (t, rest) → t ++ rest = s

/-- The matcher never takes nothing. -/
def Advances (m : Matcher α) : Prop := ∀ s t rest, m s = some (t, rest) → t ≠ []

theorem splits_nothing : Splits (nothing : Matcher α) := by
  intro s t rest h
  cases h
  rfl

theorem splits_one (p : α → Bool) : Splits (one p) := by
  intro s t rest h
  cases s with
  | nil => cases h
  | cons c s =>
      rw [one] at h
      split at h
      · cases h
        rfl
      · cases h

theorem advances_one (p : α → Bool) : Advances (one p) := by
  intro s t rest h
  cases s with
  | nil => cases h
  | cons c s =>
      rw [one] at h
      split at h
      · cases h
        exact List.cons_ne_nil _ _
      · cases h

theorem splits_many (p : α → Bool) : Splits (many p) := by
  intro s t rest h
  cases h
  exact List.takeWhile_append_dropWhile

theorem Splits.sequence {first second : Matcher α} (hfirst : Splits first)
    (hsecond : Splits second) : Splits (sequence first second) := by
  intro s t rest h
  rw [Matcher.sequence] at h
  split at h
  · cases h
  · rename_i u mid hu
    split at h
    · cases h
    · rename_i v last hv
      cases h
      rw [List.append_assoc, hsecond _ _ _ hv, hfirst _ _ _ hu]

theorem Advances.sequence {first second : Matcher α} (hfirst : Advances first) :
    Advances (sequence first second) := by
  intro s t rest h
  rw [Matcher.sequence] at h
  split at h
  · cases h
  · rename_i u mid hu
    split at h
    · cases h
    · cases h
      exact List.append_ne_nil_of_left_ne_nil (hfirst _ _ _ hu) _

theorem Advances.sequence_right (first : Matcher α) {second : Matcher α}
    (hsecond : Advances second) : Advances (Matcher.sequence first second) := by
  intro s t rest h
  rw [Matcher.sequence] at h
  split at h
  · cases h
  · split at h
    · cases h
    · rename_i v last hv
      cases h
      exact List.append_ne_nil_of_right_ne_nil _ (hsecond _ _ _ hv)

theorem Splits.orElse {first second : Matcher α} (hfirst : Splits first) (hsecond : Splits second) :
    Splits (orElse first second) := by
  intro s t rest h
  rw [Matcher.orElse] at h
  split at h
  · rename_i result hr
    exact hfirst _ _ _ (hr.trans h)
  · exact hsecond _ _ _ h

theorem Advances.orElse {first second : Matcher α} (hfirst : Advances first)
    (hsecond : Advances second) : Advances (orElse first second) := by
  intro s t rest h
  rw [Matcher.orElse] at h
  split at h
  · rename_i result hr
    exact hfirst _ _ _ (hr.trans h)
  · exact hsecond _ _ _ h

theorem Splits.optional {m : Matcher α} (hm : Splits m) : Splits (optional m) :=
  hm.orElse splits_nothing

theorem splits_exactly [BEq α] (a : α) : Splits (exactly a) := splits_one _

theorem splits_onlyBefore (p : α → Bool) {m : Matcher α} (hm : Splits m) :
    Splits (onlyBefore p m) := by
  intro s t rest h
  rw [onlyBefore] at h
  split at h
  · exact hm _ _ _ h
  · exact splits_nothing _ _ _ h

theorem splits_notBefore (p : α → Bool) : Splits (notBefore p) := by
  intro s t rest h
  rw [notBefore] at h
  split at h
  · cases h
  · exact splits_nothing _ _ _ h

theorem splits_run (first next : α → Bool) : Splits (run first next) :=
  (splits_one first).sequence (splits_many next)

theorem advances_run (first next : α → Bool) : Advances (run first next) :=
  (advances_one first).sequence

/-- The symbols already taken come first in what a scan returns. -/
theorem scanFrom_append {σ : Type} (step : σ → α → Move σ) (state : σ) (taken s : List α)
    {t rest : List α} (h : scanFrom step state taken s = some (t, rest)) :
    t ++ rest = taken.reverse ++ s := by
  induction s generalizing state taken with
  | nil => cases h
  | cons c s ih =>
      rw [scanFrom] at h
      split at h
      · rw [ih _ _ h, List.reverse_cons, List.append_assoc]
        rfl
      · cases h
        rw [List.reverse_cons, List.append_assoc]
        rfl
      · cases h

theorem splits_scan {σ : Type} (step : σ → α → Move σ) (state : σ) :
    Splits (scan step state) := by
  intro s t rest h
  exact scanFrom_append step state [] s h

/-- What a matcher that splits and advances leaves is shorter than the text. -/
theorem length_lt {m : Matcher α} (hsplits : Splits m) (hadvances : Advances m) {s t rest : List α}
    (h : m s = some (t, rest)) : rest.length < s.length := by
  have happend := hsplits _ _ _ h
  have hpos := List.length_pos_iff.mpr (hadvances _ _ _ h)
  rw [← happend, List.length_append]
  omega

end Matcher

end Respell.Text
