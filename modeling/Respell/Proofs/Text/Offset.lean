import Respell.Proofs.Text.Bytes

/-!
# Checked offsets

A text that is kept as a whole is cut at byte offsets. `cut?` makes such a cut, and has no result
where the offset lies inside a character or behind the end. `loop` repeats a turn that starts at an
offset, and has no result when a turn does not come to a further one at which the text can be cut,
so a loop ends after as many turns as there are bytes. `loop_eq` works out what a loop returns when
every single turn is known.
-/

namespace Respell.Text

variable {text t s : List Char} {n : Nat}

/-- The text in two parts, of which the first takes `n` bytes. -/
def cut? (n : Nat) (text : List Char) : Option (List Char × List Char) :=
  let parts := splitBytes n text
  if byteLength parts.1 = n then some parts else none

/-- The part of the text before the offset `n`. -/
def front? (n : Nat) (text : List Char) : Option (List Char) := (cut? n text).map Prod.fst

/-- The part of the text behind the offset `n`. -/
def behind? (n : Nat) (text : List Char) : Option (List Char) := (cut? n text).map Prod.snd

/-- The characters from the offset `start` up to `stop`. -/
def between? (start stop : Nat) (text : List Char) : Option (List Char) :=
  if start ≤ stop then (behind? start text).bind (front? (stop - start)) else none

/-- A text is cut where a first part of it ends, and nowhere else. -/
theorem cut?_eq_some_iff : cut? n text = some (t, s) ↔ text = t ++ s ∧ n = byteLength t := by
  rw [cut?]
  constructor
  · intro h
    split at h
    · rename_i hlength
      have hparts := splitBytes_fst_append_snd n text
      rw [Option.some.inj h] at hparts hlength
      exact ⟨hparts.symm, hlength.symm⟩
    · cases h
  · rintro ⟨rfl, rfl⟩
    rw [splitBytes_append, if_pos rfl]

/-- What is behind an offset stands behind a first part of so many bytes. -/
theorem behind?_eq_some_iff :
    behind? n text = some s ↔ ∃ before, text = before ++ s ∧ n = byteLength before := by
  simp [behind?, cut?_eq_some_iff]

/-- What is before an offset is a first part of so many bytes. -/
theorem front?_eq_some_iff :
    front? n text = some t ↔ ∃ after, text = t ++ after ∧ n = byteLength t := by
  simp [front?, cut?_eq_some_iff]

/-- Behind the beginning is the whole text. -/
theorem behind?_zero (text : List Char) : behind? 0 text = some text :=
  behind?_eq_some_iff.mpr ⟨[], rfl, rfl⟩

/-- The text behind an offset can be cut behind each part of it. -/
theorem behind?_add (h : behind? n text = some (t ++ s)) :
    behind? (n + byteLength t) text = some s := by
  obtain ⟨before, rfl, rfl⟩ := behind?_eq_some_iff.mp h
  exact behind?_eq_some_iff.mpr
    ⟨before ++ t, (List.append_assoc _ _ _).symm, (byteLength_append _ _).symm⟩

/-- The text behind an offset can be cut behind its first character. -/
theorem behind?_next {c : Char} (h : behind? n text = some (c :: s)) :
    behind? (n + c.utf8Size) text = some s := by
  have hadd := behind?_add (t := [c]) h
  rwa [byteLength_cons, byteLength_nil, Nat.add_zero] at hadd

/-- From an offset up to the end of a part behind it there is that part. -/
theorem between?_eq (h : behind? n text = some (t ++ s)) :
    between? n (n + byteLength t) text = some t := by
  rw [between?, if_pos (Nat.le_add_right _ _), h, Option.bind_some, Nat.add_sub_cancel_left]
  exact front?_eq_some_iff.mpr ⟨s, rfl, rfl⟩

/-- An offset and what is behind it make up the length of the text. -/
theorem add_of_behind? (h : behind? n text = some s) : n + byteLength s = byteLength text := by
  obtain ⟨before, rfl, rfl⟩ := behind?_eq_some_iff.mp h
  rw [byteLength_append]

/-- The text with the bytes from `start` up to `stop` replaced by `new`. -/
def replaceBytes? (start stop : Nat) (new text : List Char) : Option (List Char) :=
  if start ≤ stop then do
    let before ← front? start text
    let after ← behind? stop text
    some (before ++ (new ++ after))
  else none

/-- Where a middle part begins and ends the text can be cut, and another part put in its place. -/
theorem replaceBytes?_append (before middle after new : List Char) :
    replaceBytes? (byteLength before) (byteLength (before ++ middle)) new
      (before ++ (middle ++ after)) = some (before ++ (new ++ after)) := by
  have hle : byteLength before ≤ byteLength (before ++ middle) := by
    rw [byteLength_append]
    exact Nat.le_add_right _ _
  have hfront : front? (byteLength before) (before ++ (middle ++ after)) = some before :=
    front?_eq_some_iff.mpr ⟨middle ++ after, rfl, rfl⟩
  have hbehind : behind? (byteLength (before ++ middle)) (before ++ (middle ++ after)) =
      some after := behind?_eq_some_iff.mpr ⟨before ++ middle, (List.append_assoc _ _ _).symm, rfl⟩
  rw [replaceBytes?, if_pos hle, hfront, hbehind]
  rfl

/-- The character at the offset `n`, if the text does not end there. -/
def peek? (text : List Char) (n : Nat) : Option (Option Char) := (behind? n text).map List.head?

/-- The character at the offset `n`, if the text does not end there, and the offset behind it. -/
def bump? (text : List Char) (n : Nat) : Option (Option Char × Nat) :=
  (peek? text n).map fun c => (c, n + (c.map Char.utf8Size).getD 0)

theorem peek?_eq (h : behind? n text = some s) : peek? text n = some s.head? := by
  rw [peek?, h, Option.map_some]

theorem bump?_nil (h : behind? n text = some []) : bump? text n = some (none, n) := by
  rw [bump?, peek?_eq h]
  rfl

theorem bump?_cons {c : Char} (h : behind? n text = some (c :: s)) :
    bump? text n = some (some c, n + c.utf8Size) := by
  rw [bump?, peek?_eq h]
  rfl

/-- The offset at which `pattern` first occurs in the text. -/
def find? (pattern : List Char) : List Char → Option Nat
  | [] => if pattern.isEmpty then some 0 else none
  | c :: s =>
    if pattern.isPrefixOf (c :: s) then some 0 else (find? pattern s).map (c.utf8Size + ·)

/-- What one turn of a loop comes to: another turn at an offset, or the end. -/
inductive Turn (σ β : Type) where
  | again (state : σ) (n : Nat)
  | done (result : β)

variable {σ β : Type}

/-- Repeats the turn from the offset `n` until one says that it is the last. Another turn has to
start at a further offset, at which the text can be cut. -/
def loop (text : List Char) (turn : σ → Nat → Option (Turn σ β)) (state : σ) (n : Nat) : Option β :=
  match turn state n with
  | none => none
  | some (.done result) => some result
  | some (.again next m) =>
    if _ : n < m ∧ (behind? m text).isSome then loop text turn next m else none
termination_by byteLength text - n
decreasing_by
  rename_i h
  obtain ⟨s, hs⟩ := Option.isSome_iff_exists.mp h.2
  have := add_of_behind? hs
  omega

/-- `Leads text good result n r turn`: the turn at the offset `n` ends with `r`, or it is followed by
one at a further offset from which on the result, given the text behind it, is still `r`. -/
inductive Leads (text : List Char) (good : σ → Prop) (result : σ → Nat → List Char → β) (n : Nat)
    (r : β) : Option (Turn σ β) → Prop where
  | done : Leads text good result n r (some (.done r))
  | again {state : σ} {m : Nat} {s : List Char} : n < m → behind? m text = some s → good state →
      result state m s = r → Leads text good result n r (some (.again state m))

/-- A loop has the result to which every turn leads. -/
theorem loop_eq {turn : σ → Nat → Option (Turn σ β)} (good : σ → Prop)
    (result : σ → Nat → List Char → β)
    (hturn : ∀ state n s, good state → behind? n text = some s →
      Leads text good result n (result state n s) (turn state n))
    (state : σ) (hgood : good state) (h : behind? n text = some s) :
    loop text turn state n = some (result state n s) := by
  fun_induction loop text turn state n generalizing s with
  | case1 state n hnone =>
      have hleads := hturn state n s hgood h
      rw [hnone] at hleads
      cases hleads
  | case2 state n r hdone =>
      have hleads := hturn state n s hgood h
      rw [hdone] at hleads
      generalize result state n s = r' at hleads
      cases hleads
      rfl
  | case3 state n next m hagain _ ih =>
      have hleads := hturn state n s hgood h
      rw [hagain] at hleads
      generalize hr : result state n s = r' at hleads
      cases hleads with
      | again _ hm hnext hresult => rw [ih hnext hm, hresult]
  | case4 state n next m hagain hnot =>
      have hleads := hturn state n s hgood h
      rw [hagain] at hleads
      cases hleads with
      | again hlt hm => exact absurd ⟨hlt, by rw [hm]; rfl⟩ hnot

end Respell.Text
