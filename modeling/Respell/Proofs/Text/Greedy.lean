import Respell.Proofs.Text.Matcher

/-!
# How far a matcher looks and reaches

`LooksOneAhead` states of a matcher that of what comes behind the part it takes only the first
symbol matters to it. `Greedy` states that a part which a matcher takes before one text is taken
before every other text too, alone or with more. Both are carried through sequence, choice and
option. A choice keeps them where the first symbol decides between its two sides, which is what
`DecidesByHead` is for. A greedy matcher that takes symbols of one kind only ends before every
symbol of another kind, which `Greedy.ends` states.
-/

namespace Respell.Text.Matcher

variable {α : Type} {first second m : Matcher α}

/-- Behind what the matcher takes only the first symbol matters. -/
def LooksOneAhead (m : Matcher α) : Prop :=
  ∀ t rest other, m (t ++ rest) = some (t, rest) → rest.head? = other.head? →
    m (t ++ other) = some (t, other)

/-- What the matcher takes before one text it takes before every text, alone or with more. -/
def Greedy (m : Matcher α) : Prop :=
  ∀ t rest other, m (t ++ rest) = some (t, rest) → ∃ u last, m (t ++ other) = some (t ++ u, last)

/-- Whether the matcher refuses a text is seen from the first symbol. -/
def DecidesByHead (m : Matcher α) : Prop :=
  ∀ s other, s.head? = other.head? → m s = none → m other = none

/-- The matcher refuses no text. -/
def Total (m : Matcher α) : Prop := ∀ s, m s ≠ none

/-- Every symbol that the matcher takes is one for which `p` holds. -/
def TakesOnly (p : α → Bool) (m : Matcher α) : Prop :=
  ∀ s t rest, m s = some (t, rest) → ∀ c ∈ t, p c = true

/-- Two texts with a common beginning have the same first symbol when what follows has. -/
theorem head?_append_congr {t rest other : List α} (h : t = [] → rest.head? = other.head?) :
    (t ++ rest).head? = (t ++ other).head? := by
  cases t with
  | nil => exact h rfl
  | cons c t => rfl

theorem decidesByHead_one (p : α → Bool) : DecidesByHead (one p) := by
  intro s other hhead h
  cases other with
  | nil => rfl
  | cons c other =>
      cases s with
      | nil => cases hhead
      | cons d s =>
          cases hhead
          rw [one] at h ⊢
          split at h
          · cases h
          · rename_i hc
            rw [if_neg hc]

theorem total_many (p : α → Bool) : Total (many p) := fun _ h => nomatch h

theorem total_optional (m : Matcher α) : Total (optional m) := by
  intro s h
  rw [optional, orElse] at h
  split at h <;> cases h

/-- A sequence refuses a text when its second part refuses what the first part leaves. -/
theorem sequence_eq_none_iff {s : List α} : sequence first second s = none ↔
    ∀ t rest, first s = some (t, rest) → second rest = none := by
  rw [sequence]
  cases first s with
  | none => simp
  | some result =>
      obtain ⟨t, rest⟩ := result
      cases hrest : second rest with
      | none => simp [hrest]
      | some result => simp [hrest]

/-- A sequence of which the second part refuses nothing refuses what the first part refuses. -/
theorem sequence_eq_none_iff_of_total (hsecond : Total second) {s : List α} :
    sequence first second s = none ↔ first s = none := by
  rw [sequence_eq_none_iff]
  constructor
  · intro h
    cases hs : first s with
    | none => rfl
    | some result => exact absurd (h result.1 result.2 hs) (hsecond _)
  · intro h t rest hs
    rw [h] at hs
    cases hs

/-- A symbol and what comes behind it are taken when neither is refused. -/
theorem one_sequence_ne_none_iff {p : α → Bool} {s : List α} :
    sequence (one p) m s ≠ none ↔ ∃ c rest, s = c :: rest ∧ p c = true ∧ m rest ≠ none := by
  rw [ne_eq, sequence_eq_none_iff]
  cases s with
  | nil => simp [one]
  | cons c s => cases hc : p c <;> simp [one, hc, and_assoc]

/-- Behind a symbol that may be there the matcher reads on, with it or without it. -/
theorem optional_one_sequence_eq_none_iff {p : α → Bool} {c : α} {s : List α} :
    sequence (optional (one p)) m (c :: s) = none ↔
      p c = true ∧ m s = none ∨ p c = false ∧ m (c :: s) = none := by
  rw [sequence_eq_none_iff, optional, orElse, one]
  cases hc : p c with
  | false => simp [nothing]
  | true => simp

theorem DecidesByHead.sequence (hfirst : DecidesByHead first) (hsecond : Total second) :
    DecidesByHead (sequence first second) := by
  intro s other hhead h
  rw [sequence_eq_none_iff_of_total hsecond] at h ⊢
  exact hfirst s other hhead h

theorem Total.sequence (hfirst : Total first) (hsecond : Total second) :
    Total (sequence first second) := by
  intro s h
  exact hfirst s ((sequence_eq_none_iff_of_total hsecond).mp h)

/-- A choice refuses a text that both refuse. -/
theorem orElse_eq_none_iff {s : List α} :
    orElse first second s = none ↔ first s = none ∧ second s = none := by
  rw [orElse]
  cases first s with
  | none => simp
  | some result => simp

/-- A choice takes what one of its sides takes, the second one only where the first refuses. -/
theorem orElse_eq_some_iff {s t rest : List α} :
    orElse first second s = some (t, rest) ↔
      first s = some (t, rest) ∨ first s = none ∧ second s = some (t, rest) := by
  rw [orElse]
  cases first s with
  | none => simp
  | some result => simp

/-- An option takes what its matcher takes, and nothing where that refuses. -/
theorem optional_eq_some_iff {s t rest : List α} :
    optional m s = some (t, rest) ↔ m s = some (t, rest) ∨ m s = none ∧ t = [] ∧ rest = s := by
  rw [optional, orElse_eq_some_iff]
  simp [nothing, eq_comm]

theorem SelfDelimiting.looksOneAhead (hm : SelfDelimiting m) : LooksOneAhead m :=
  fun t rest other h _ => hm t rest other h

theorem looksOneAhead_many (p : α → Bool) : LooksOneAhead (many p) := by
  intro t rest other h hhead
  obtain ⟨_, hall, hstop⟩ := many_eq_some_iff.mp h
  exact many_eq_some_iff.mpr ⟨rfl, hall, hhead ▸ hstop⟩

theorem LooksOneAhead.sequence (hfirst : LooksOneAhead first) (hsecond : LooksOneAhead second)
    (hsplits : Splits second) : LooksOneAhead (sequence first second) := by
  intro t rest other h hhead
  obtain ⟨u, v, mid, rfl, hu, hv⟩ := sequence_eq_some_iff.mp h
  have hmid : v ++ rest = mid := hsplits _ _ _ hv
  subst hmid
  rw [List.append_assoc] at hu ⊢
  exact sequence_eq_some_iff.mpr ⟨u, v, v ++ other, rfl,
    hfirst _ _ _ hu (head?_append_congr fun _ => hhead), hsecond _ _ _ hv hhead⟩

theorem looksOneAhead_run (p q : α → Bool) : LooksOneAhead (run p q) :=
  (selfDelimiting_one p).looksOneAhead.sequence (looksOneAhead_many q) (splits_many q)

theorem LooksOneAhead.optional (hm : LooksOneAhead m) (hhead : DecidesByHead m) :
    LooksOneAhead (optional m) := by
  intro t rest other h heq
  rw [optional_eq_some_iff] at h ⊢
  rcases h with h | ⟨h, rfl, _⟩
  · exact Or.inl (hm _ _ _ h heq)
  · exact Or.inr ⟨hhead _ _ heq h, rfl, rfl⟩

theorem LooksOneAhead.orElse (hfirst : LooksOneAhead first) (hsecond : LooksOneAhead second)
    (hhead : DecidesByHead first) : LooksOneAhead (orElse first second) := by
  intro t rest other h heq
  rw [orElse_eq_some_iff] at h ⊢
  rcases h with h | ⟨hrefused, h⟩
  · exact Or.inl (hfirst _ _ _ h heq)
  · exact Or.inr ⟨hhead _ _ (head?_append_congr fun _ => heq) hrefused, hsecond _ _ _ h heq⟩

theorem SelfDelimiting.greedy (hm : SelfDelimiting m) : Greedy m :=
  fun t rest other h => ⟨[], other, by rw [List.append_nil]; exact hm t rest other h⟩

theorem greedy_many (p : α → Bool) : Greedy (many p) := by
  intro t rest other h
  obtain ⟨_, hall, _⟩ := many_eq_some_iff.mp h
  exact ⟨other.takeWhile p, other.dropWhile p, by
    rw [many, List.takeWhile_append_of_pos hall, List.dropWhile_append_of_pos hall]⟩

/-- A sequence is greedy where its first part, behind which the second has taken something, takes
the same before every other text; its second part takes something, or it refuses nothing. -/
theorem Greedy.sequence (hfirst : Greedy first) (hsecond : Greedy second) (hsplits : Splits second)
    (hkeeps : ∀ u v rest other, v ≠ [] → first (u ++ (v ++ rest)) = some (u, v ++ rest) →
      second (v ++ rest) = some (v, rest) → first (u ++ (v ++ other)) = some (u, v ++ other))
    (htakes : Advances second ∨ Total second) : Greedy (sequence first second) := by
  intro t rest other h
  obtain ⟨u, v, mid, rfl, hu, hv⟩ := sequence_eq_some_iff.mp h
  have hmid : v ++ rest = mid := hsplits _ _ _ hv
  subst hmid
  rw [List.append_assoc] at hu
  by_cases hnil : v = []
  · -- The first part may take more, and then the second part takes whatever follows that.
    subst hnil
    have htotal : Total second := htakes.resolve_left fun hadvances => hadvances _ _ _ hv rfl
    obtain ⟨w, mid, hw⟩ := hfirst _ _ other hu
    obtain ⟨⟨x, last⟩, hx⟩ := Option.ne_none_iff_exists'.mp (htotal mid)
    refine ⟨w ++ x, last, sequence_eq_some_iff.mpr ⟨u ++ w, x, mid, by simp, ?_, hx⟩⟩
    rw [List.append_nil]
    exact hw
  · obtain ⟨w, last, hw⟩ := hsecond _ _ other hv
    refine ⟨w, last, sequence_eq_some_iff.mpr ⟨u, v ++ w, v ++ other, by simp, ?_, hw⟩⟩
    rw [List.append_assoc]
    exact hkeeps _ _ _ _ hnil hu hv

/-- What looks one symbol ahead takes the same part before every text that begins alike. -/
theorem LooksOneAhead.keeps (hm : LooksOneAhead m) {u v rest : List α} (other : List α)
    (hne : v ≠ []) (h : m (u ++ (v ++ rest)) = some (u, v ++ rest)) :
    m (u ++ (v ++ other)) = some (u, v ++ other) :=
  hm _ _ _ h (head?_append_congr fun hnil => absurd hnil hne)

/-- A sequence is greedy where its first part looks one symbol ahead. -/
theorem Greedy.sequence_of_looksOneAhead (hfirst : Greedy first) (hlooks : LooksOneAhead first)
    (hsecond : Greedy second) (hsplits : Splits second)
    (htakes : Advances second ∨ Total second) : Greedy (Matcher.sequence first second) :=
  hfirst.sequence hsecond hsplits (fun _ _ _ other hne h _ => hlooks.keeps other hne h) htakes

/-- A sequence is greedy where its first part looks at nothing behind it. -/
theorem SelfDelimiting.greedy_sequence (hfirst : SelfDelimiting first) (hsecond : Greedy second)
    (hsplits : Splits second) (htakes : Advances second ∨ Total second) :
    Greedy (Matcher.sequence first second) :=
  hfirst.greedy.sequence_of_looksOneAhead hfirst.looksOneAhead hsecond hsplits htakes

theorem greedy_run (p q : α → Bool) : Greedy (run p q) :=
  (selfDelimiting_one p).greedy_sequence (greedy_many q) (splits_many q) (Or.inr (total_many q))

theorem Greedy.optional (hm : Greedy m) : Greedy (optional m) := by
  intro t rest other h
  rcases optional_eq_some_iff.mp h with h | ⟨_, rfl, _⟩
  · obtain ⟨u, last, hu⟩ := hm _ _ other h
    exact ⟨u, last, optional_eq_some_iff.mpr (Or.inl hu)⟩
  · obtain ⟨⟨u, last⟩, hu⟩ := Option.ne_none_iff_exists'.mp (total_optional m other)
    exact ⟨u, last, hu⟩

/-- A choice is greedy where its first side, when it takes a text of which the second side took a
part before, takes no less than that part. -/
theorem Greedy.orElse (hfirst : Greedy first) (hsecond : Greedy second)
    (hmore : ∀ t rest other w last, first (t ++ rest) = none → second (t ++ rest) = some (t, rest) →
      first (t ++ other) = some (w, last) → t <+: w) : Greedy (orElse first second) := by
  intro t rest other h
  rcases orElse_eq_some_iff.mp h with h | ⟨hrefused, h⟩
  · obtain ⟨u, last, hu⟩ := hfirst _ _ other h
    exact ⟨u, last, orElse_eq_some_iff.mpr (Or.inl hu)⟩
  · cases hother : first (t ++ other) with
    | none =>
        obtain ⟨u, last, hu⟩ := hsecond _ _ other h
        exact ⟨u, last, orElse_eq_some_iff.mpr (Or.inr ⟨hother, hu⟩)⟩
    | some result =>
        obtain ⟨w, last⟩ := result
        obtain ⟨u, rfl⟩ := hmore _ _ _ _ _ hrefused h hother
        exact ⟨u, last, orElse_eq_some_iff.mpr (Or.inl hother)⟩

/-- Of two texts a greedy matcher takes a part each. When each text begins with both parts, the
parts are the same. -/
theorem Greedy.eq_of_takes (hm : Greedy m) {t u rest last more other : List α}
    (ht : m (t ++ rest) = some (t, rest)) (hu : m (u ++ last) = some (u, last))
    (htext : t ++ rest = u ++ more) (hother : u ++ last = t ++ other) : t = u := by
  obtain ⟨a, x, ha⟩ := hm _ _ more hu
  rw [← htext, ht, Option.some.injEq, Prod.mk.injEq] at ha
  obtain ⟨b, y, hb⟩ := hm _ _ other ht
  rw [← hother, hu, Option.some.injEq, Prod.mk.injEq] at hb
  have hlength := congrArg List.length hb.1
  rw [ha.1] at hlength ⊢
  simp only [List.length_append] at hlength
  have ha' : a = [] := List.length_eq_zero_iff.mp (by omega)
  rw [ha', List.append_nil]

section TakesOnly

variable {p q : α → Bool}

theorem takesOnly_nothing (p : α → Bool) : TakesOnly p nothing := by
  intro s t rest h c hc
  cases h
  cases hc

theorem takesOnly_one (h : ∀ c, q c = true → p c = true) : TakesOnly p (one q) := by
  intro s t rest hs c hc
  obtain ⟨d, rfl, hd, _⟩ := one_eq_some_iff.mp hs
  rw [List.mem_singleton.mp hc]
  exact h d hd

theorem takesOnly_many (h : ∀ c, q c = true → p c = true) : TakesOnly p (many q) := by
  intro s t rest hs c hc
  exact h c ((many_eq_some_iff.mp hs).2.1 c hc)

theorem takesOnly_exactly [BEq α] [LawfulBEq α] {a : α} (h : p a = true) :
    TakesOnly p (exactly a) :=
  takesOnly_one fun _ hc => eq_of_beq hc ▸ h

theorem TakesOnly.sequence (hfirst : TakesOnly p first) (hsecond : TakesOnly p second) :
    TakesOnly p (sequence first second) := by
  intro s t rest h c hc
  obtain ⟨u, v, mid, rfl, hu, hv⟩ := sequence_eq_some_iff.mp h
  rcases List.mem_append.mp hc with hc | hc
  · exact hfirst _ _ _ hu c hc
  · exact hsecond _ _ _ hv c hc

theorem TakesOnly.orElse (hfirst : TakesOnly p first) (hsecond : TakesOnly p second) :
    TakesOnly p (orElse first second) := by
  intro s t rest h
  rcases orElse_eq_some_iff.mp h with h | ⟨_, h⟩
  · exact hfirst _ _ _ h
  · exact hsecond _ _ _ h

theorem TakesOnly.optional (hm : TakesOnly p m) : TakesOnly p (optional m) :=
  hm.orElse (takesOnly_nothing p)

theorem takesOnly_run {first next : α → Bool} (hfirst : ∀ c, first c = true → p c = true)
    (hnext : ∀ c, next c = true → p c = true) : TakesOnly p (run first next) :=
  (takesOnly_one hfirst).sequence (takesOnly_many hnext)

/-- A greedy matcher that takes only symbols of one kind takes the same before every text that goes
on as before at first, and then is over or goes on with a symbol of another kind. -/
theorem Greedy.ends (hm : Greedy m) (hsplits : Splits m) (honly : TakesOnly p m)
    (middle : List α) {t rest other : List α}
    (h : m (t ++ (middle ++ rest)) = some (t, middle ++ rest))
    (hother : other.head?.any p = false) :
    m (t ++ (middle ++ other)) = some (t, middle ++ other) := by
  obtain ⟨u, last, hu⟩ := hm _ _ (middle ++ other) h
  have htext : u ++ last = middle ++ other :=
    List.append_cancel_left ((List.append_assoc _ _ _).symm.trans (hsplits _ _ _ hu))
  -- What is taken ends before the other symbol, so it was there before as well.
  obtain ⟨more, hmiddle, hlast⟩ : ∃ more, middle = u ++ more ∧ last = more ++ other := by
    rcases List.append_eq_append_iff.mp htext with ⟨more, hmiddle, hlast⟩ | ⟨more, rfl, hmore⟩
    · exact ⟨more, hmiddle, hlast⟩
    · cases more with
      | nil => exact ⟨[], by simp, by simpa using hmore.symm⟩
      | cons c more =>
          have hc := honly _ _ _ hu c (by simp)
          rw [hmore, List.cons_append, List.head?_cons, Option.any_some, hc] at hother
          cases hother
  have hbefore : t ++ (middle ++ rest) = (t ++ u) ++ (more ++ rest) := by
    rw [hmiddle, List.append_assoc, List.append_assoc]
  have hafter : (t ++ u) ++ last = t ++ (middle ++ other) := by
    rw [List.append_assoc, htext]
  have hwhole : m ((t ++ u) ++ last) = some (t ++ u, last) := by
    rw [hafter]
    exact hu
  have hsame : t = t ++ u := hm.eq_of_takes h hwhole hbefore hafter
  have hnil : u = [] := List.self_eq_append_right.mp hsame
  rw [hnil, List.append_nil] at hu
  rw [hnil, List.nil_append] at htext
  rw [hu, htext]

end TakesOnly

end Respell.Text.Matcher
