import Mathlib.Computability.Language
import Respell.Proofs.Text.Greedy

/-!
# Patterns

A pattern describes texts by their parts, and `language` are the texts that it describes. A first
part of a text that it describes can often be found in several ways; a search that goes back where
it cannot go on tries them in a fixed order, and the first of `tries` is what it finds. The reading
of `matcher` never goes back. `mem_tries_iff` states that exactly the first parts in the language
are tried, and `Straight` that nothing would be gained by going back, so that the search finds what
the reading takes.

Neither the order nor the reading asks for the length of a part. `TakesWhole` states that every text
of the language is taken as a whole when it stands alone. With a greedy reading, that is enough for
the longest first part in the language to be taken before every rest: `matcher_eq_some_iff`.
-/

namespace Respell.Text

/-- A description of texts. Of a choice the first alternative is tried first, and of an option or a
repetition, which is that of a single symbol, the longest. -/
inductive Pattern (α : Type) where
  | one (p : α → Bool)
  | many (p : α → Bool)
  | sequence (first second : Pattern α)
  | choice (first second : Pattern α)
  | optional (part : Pattern α)

/-- `IsLongest P s t rest`: the text `s` is cut into `t` and `rest`, and no first part of it for
which `P` holds is longer than `t`, for which it holds. -/
structure IsLongest {α : Type} (P : List α → Prop) (s t rest : List α) : Prop where
  holds : P t
  append_eq : s = t ++ rest
  longest : ∀ u, P u → u <+: s → u.length ≤ t.length

/-- There is at most one longest first part. -/
theorem IsLongest.unique {α : Type} {P : List α → Prop} {s t u rest last : List α}
    (h : IsLongest P s t rest) (h' : IsLongest P s u last) : t = u ∧ rest = last := by
  have htext : t ++ rest = u ++ last := h.append_eq.symm.trans h'.append_eq
  have hlength : t.length = u.length := Nat.le_antisymm
    (h'.longest t h.holds ⟨rest, h.append_eq.symm⟩) (h.longest u h'.holds ⟨last, h'.append_eq.symm⟩)
  exact List.append_inj htext hlength

namespace Pattern

open Matcher

variable {α : Type} {first second part : Pattern α} {p q : α → Bool} {s t rest : List α}

/-- The texts of a pattern. -/
def language : Pattern α → Language α
  | one p => {t | ∃ c, t = [c] ∧ p c = true}
  | many p => {t | ∀ c ∈ t, p c = true}
  | sequence first second => first.language * second.language
  | choice first second => first.language + second.language
  | optional part => part.language + 1

/-- The reading of a pattern that never goes back. -/
def matcher : Pattern α → Matcher α
  | one p => Matcher.one p
  | many p => Matcher.many p
  | sequence first second => Matcher.sequence first.matcher second.matcher
  | choice first second => Matcher.orElse first.matcher second.matcher
  | optional part => Matcher.optional part.matcher

/-- The first parts of a text for whose symbols `p` holds, with the rests, the longest first. -/
def longestFirst (p : α → Bool) : List α → List (List α × List α)
  | [] => [([], [])]
  | c :: s => if p c then (longestFirst p s).map (prepend c) ++ [([], c :: s)] else [([], c :: s)]

/-- The first parts of a text that a pattern describes, with the rests, in the order in which a
search tries them. -/
def tries : Pattern α → List α → List (List α × List α)
  | one p, s => (Matcher.one p s).toList
  | many p, s => longestFirst p s
  | sequence first second, s =>
    (first.tries s).flatMap fun r => (second.tries r.2).map fun q => (r.1 ++ q.1, q.2)
  | choice first second, s => first.tries s ++ second.tries s
  | optional part, s => part.tries s ++ [([], s)]

theorem mem_longestFirst_iff :
    (t, rest) ∈ longestFirst p s ↔ s = t ++ rest ∧ ∀ c ∈ t, p c = true := by
  induction s generalizing t with
  | nil =>
      rw [longestFirst, List.mem_singleton, Prod.mk.injEq]
      constructor
      · rintro ⟨rfl, rfl⟩
        exact ⟨rfl, List.forall_mem_nil _⟩
      · rintro ⟨htext, _⟩
        exact List.append_eq_nil_iff.mp htext.symm
  | cons c s ih =>
      have hempty : (t, rest) ∈ [([], c :: s)] ↔ t = [] ∧ rest = c :: s := by simp
      cases t with
      | nil =>
          have hlast : ([], rest) ∈ longestFirst p (c :: s) ↔ rest = c :: s := by
            rw [longestFirst]
            split <;> simp [prepend]
          rw [hlast, List.nil_append, eq_comm]
          exact (and_iff_left (List.forall_mem_nil _)).symm
      | cons d t =>
          rw [longestFirst]
          split
          · rename_i hc
            have hcons : (d :: t, rest) ∈ (longestFirst p s).map (prepend c) ↔
                c = d ∧ (t, rest) ∈ longestFirst p s := by
              simp only [List.mem_map, prepend, Prod.mk.injEq, List.cons.injEq, Prod.exists]
              constructor
              · rintro ⟨u, last, hu, ⟨rfl, rfl⟩, rfl⟩
                exact ⟨rfl, hu⟩
              · rintro ⟨rfl, hu⟩
                exact ⟨t, rest, hu, ⟨rfl, rfl⟩, rfl⟩
            rw [List.mem_append, hcons, ih, hempty]
            constructor
            · rintro (⟨rfl, rfl, hall⟩ | ⟨hnil, _⟩)
              · exact ⟨rfl, List.forall_mem_cons.mpr ⟨hc, hall⟩⟩
              · cases hnil
            · rintro ⟨htext, hall⟩
              obtain ⟨rfl, rfl⟩ := List.cons.inj htext
              exact Or.inl ⟨rfl, rfl, (List.forall_mem_cons.mp hall).2⟩
          · rename_i hc
            rw [hempty]
            refine iff_of_false (fun h => by cases h.1) ?_
            rintro ⟨htext, hall⟩
            obtain ⟨rfl, _⟩ := List.cons.inj htext
            exact hc (hall c List.mem_cons_self)

/-- A search tries exactly the first parts that are in the language. -/
theorem mem_tries_iff (pattern : Pattern α) :
    (t, rest) ∈ pattern.tries s ↔ s = t ++ rest ∧ t ∈ pattern.language := by
  induction pattern generalizing s t rest with
  | one p =>
      rw [tries, Option.mem_toList, one_eq_some_iff]
      constructor
      · rintro ⟨c, rfl, hc, rfl⟩
        exact ⟨rfl, c, rfl, hc⟩
      · rintro ⟨rfl, c, rfl, hc⟩
        exact ⟨c, rfl, hc, rfl⟩
  | many p => exact mem_longestFirst_iff
  | sequence first second ihfirst ihsecond =>
      simp only [tries, List.mem_flatMap, List.mem_map, Prod.exists, Prod.mk.injEq]
      rw [language, Language.mem_mul]
      constructor
      · rintro ⟨u, mid, hu, v, last, hv, rfl, rfl⟩
        obtain ⟨rfl, humem⟩ := ihfirst.mp hu
        obtain ⟨rfl, hvmem⟩ := ihsecond.mp hv
        exact ⟨(List.append_assoc _ _ _).symm, u, humem, v, hvmem, rfl⟩
      · rintro ⟨rfl, u, hu, v, hv, rfl⟩
        exact ⟨u, v ++ rest, ihfirst.mpr ⟨List.append_assoc _ _ _, hu⟩, v, rest,
          ihsecond.mpr ⟨rfl, hv⟩, rfl, rfl⟩
  | choice first second ihfirst ihsecond =>
      rw [tries, List.mem_append, ihfirst, ihsecond, language, Language.mem_add, and_or_left]
  | optional part ih =>
      rw [tries, List.mem_append, ih, language, Language.mem_add, Language.mem_one, and_or_left]
      refine or_congr_right ?_
      rw [List.mem_singleton, Prod.mk.injEq]
      constructor
      · rintro ⟨rfl, rfl⟩
        exact ⟨rfl, rfl⟩
      · rintro ⟨rfl, rfl⟩
        exact ⟨rfl, rfl⟩

/-- A reading cuts the text in two. -/
theorem splits_matcher (pattern : Pattern α) : Splits pattern.matcher := by
  induction pattern with
  | one p => exact splits_one p
  | many p => exact splits_many p
  | sequence first second ihfirst ihsecond => exact ihfirst.sequence ihsecond
  | choice first second ihfirst ihsecond => exact ihfirst.orElse ihsecond
  | optional part ih => exact ih.optional

/-- The symbols that can stand in a text of a pattern. -/
def uses : Pattern α → α → Bool
  | one p, c => p c
  | many p, c => p c
  | sequence first second, c => first.uses c || second.uses c
  | choice first second, c => first.uses c || second.uses c
  | optional part, c => part.uses c

/-- A reading takes only what can stand in a text of the pattern. -/
theorem takesOnly_matcher (pattern : Pattern α) : TakesOnly pattern.uses pattern.matcher := by
  have hmono : ∀ {m : Matcher α} {p q : α → Bool}, (∀ c, p c = true → q c = true) →
      TakesOnly p m → TakesOnly q m :=
    fun himp h s t rest hs c hc => himp c (h s t rest hs c hc)
  induction pattern with
  | one p => exact takesOnly_one fun _ hc => hc
  | many p => exact takesOnly_many fun _ hc => hc
  | sequence first second ihfirst ihsecond =>
      exact (hmono (fun c hc => Bool.or_eq_true_iff.mpr (Or.inl hc)) ihfirst).sequence
        (hmono (fun c hc => Bool.or_eq_true_iff.mpr (Or.inr hc)) ihsecond)
  | choice first second ihfirst ihsecond =>
      exact (hmono (fun c hc => Bool.or_eq_true_iff.mpr (Or.inl hc)) ihfirst).orElse
        (hmono (fun c hc => Bool.or_eq_true_iff.mpr (Or.inr hc)) ihsecond)
  | optional part ih => exact ih.optional

/-- The empty text is one of the pattern. -/
def nullable : Pattern α → Bool
  | one _ => false
  | many _ => true
  | sequence first second => first.nullable && second.nullable
  | choice first second => first.nullable || second.nullable
  | optional _ => true

/-- The symbols with which a text of a pattern can begin. -/
def begins : Pattern α → α → Bool
  | one p, c => p c
  | many p, c => p c
  | sequence first second, c => first.begins c || (first.nullable && second.begins c)
  | choice first second, c => first.begins c || second.begins c
  | optional part, c => part.begins c

theorem nullable_of_nil_mem (pattern : Pattern α) (h : [] ∈ pattern.language) :
    pattern.nullable = true := by
  induction pattern with
  | one p =>
      obtain ⟨c, hc, _⟩ := h
      cases hc
  | many p => rfl
  | sequence first second ihfirst ihsecond =>
      obtain ⟨u, hu, v, hv, htext⟩ := Language.mem_mul.mp h
      obtain ⟨rfl, rfl⟩ := List.append_eq_nil_iff.mp htext
      rw [nullable, ihfirst hu, ihsecond hv]
      rfl
  | choice first second ihfirst ihsecond => exact Bool.or_eq_true_iff.mpr (h.imp ihfirst ihsecond)
  | optional part ih => rfl

theorem begins_of_cons_mem (pattern : Pattern α) {c : α} (h : c :: t ∈ pattern.language) :
    pattern.begins c = true := by
  induction pattern generalizing t with
  | one p =>
      obtain ⟨d, htext, hd⟩ := h
      cases htext
      exact hd
  | many p => exact h c List.mem_cons_self
  | sequence first second ihfirst ihsecond =>
      obtain ⟨u, hu, v, hv, htext⟩ := Language.mem_mul.mp h
      rw [begins, Bool.or_eq_true, Bool.and_eq_true]
      cases u with
      | nil =>
          rw [List.nil_append] at htext
          exact Or.inr ⟨nullable_of_nil_mem _ hu, ihsecond (htext ▸ hv)⟩
      | cons d u =>
          obtain ⟨rfl, rfl⟩ := List.cons.inj htext
          exact Or.inl (ihfirst hu)
  | choice first second ihfirst ihsecond => exact Bool.or_eq_true_iff.mpr (h.imp ihfirst ihsecond)
  | optional part ih =>
      rcases h with h | h
      · exact ih h
      · cases h

/-- A symbol of another kind than those that begin the texts of a pattern begins none. -/
theorem head?_any_of_apart {pattern : Pattern α}
    (hapart : ∀ c, pattern.begins c = true → p c = false) (h : t ∈ pattern.language) :
    t.head?.any p = false := by
  cases t with
  | nil => rfl
  | cons c t => exact hapart c (begins_of_cons_mem pattern h)

/-- A search finds what the reading takes, so it never has to go back. -/
def Straight (pattern : Pattern α) : Prop := ∀ s, (pattern.tries s).head? = pattern.matcher s

theorem straight_one (p : α → Bool) : Straight (one p) := fun s => by
  rw [tries, matcher]
  cases Matcher.one p s <;> rfl

theorem straight_many (p : α → Bool) : Straight (many p) := by
  intro s
  rw [tries, matcher]
  induction s with
  | nil => rfl
  | cons c s ih =>
      rw [longestFirst, Matcher.many]
      cases hc : p c with
      | false => simp [hc]
      | true => simp [hc, ih, Matcher.many, prepend]

theorem Straight.choice (hfirst : Straight first) (hsecond : Straight second) :
    Straight (choice first second) := by
  intro s
  rw [tries, matcher, orElse, List.head?_append, hfirst, hsecond]
  cases first.matcher s <;> rfl

theorem Straight.optional (hpart : Straight part) : Straight (optional part) := by
  intro s
  rw [tries, matcher, Matcher.optional, orElse, List.head?_append, hpart]
  cases part.matcher s <;> rfl

/-- A search for two patterns goes straight where each does and the second one, when it is refused
behind what is tried first, is refused behind all the rest. -/
theorem Straight.sequence (hfirst : Straight first) (hsecond : Straight second)
    (hback : ∀ s r others, first.tries s = r :: others → second.matcher r.2 = none →
      ∀ q ∈ others, second.matcher q.2 = none) : Straight (sequence first second) := by
  intro s
  have hmap : ∀ r : List α × List α,
      ((second.tries r.2).map fun q => (r.1 ++ q.1, q.2)).head? =
        (second.matcher r.2).map fun q => (r.1 ++ q.1, q.2) := by
    intro r
    rw [List.head?_map, hsecond]
  have htries := hfirst s
  rw [tries, matcher, List.head?_flatMap, Matcher.sequence]
  cases hs : first.tries s with
  | nil =>
      rw [hs, List.head?_nil] at htries
      rw [← htries]
      rfl
  | cons r others =>
      rw [hs, List.head?_cons] at htries
      rw [← htries, List.findSome?_cons, hmap]
      dsimp only
      cases hr : second.matcher r.2 with
      | some q => rfl
      | none =>
          -- The search goes back and finds nothing, as the reading does without going back.
          rw [Option.map_none]
          dsimp only
          refine List.findSome?_eq_none_iff.mpr fun q hq => ?_
          rw [hmap, hback s r others hs hr q hq]
          rfl

/-- Nothing is refused by the second pattern, so nothing makes the search go back. -/
theorem Straight.sequence_of_total (hfirst : Straight first) (hsecond : Straight second)
    (htotal : Total second.matcher) : Straight (Pattern.sequence first second) :=
  hfirst.sequence hsecond fun _ _ _ _ hrefused => absurd hrefused (htotal _)

/-- A single symbol can be found in one way only. -/
theorem Straight.one_sequence (p : α → Bool) (hsecond : Straight second) :
    Straight (Pattern.sequence (one p) second) := by
  refine (straight_one p).sequence hsecond fun s r others htries _ q hq => ?_
  rw [tries] at htries
  cases hs : Matcher.one p s with
  | none =>
      rw [hs] at htries
      cases htries
  | some result =>
      rw [hs] at htries
      cases htries
      cases hq

/-- It is in vain to go back behind a symbol with which the second pattern does not begin. -/
theorem Straight.optional_one_sequence (hsecond : Straight second)
    (hapart : ∀ c s, p c = true → second.matcher (c :: s) = none) :
    Straight (Pattern.sequence (Pattern.optional (one p)) second) := by
  refine (straight_one p).optional.sequence hsecond fun s r others htries _ q hq => ?_
  rw [tries, tries] at htries
  cases hs : Matcher.one p s with
  | none =>
      rw [hs] at htries
      cases htries
      cases hq
  | some result =>
      obtain ⟨c, _, hc, rfl⟩ := one_eq_some_iff.mp hs
      rw [hs] at htries
      cases htries
      rw [List.mem_singleton.mp hq]
      exact hapart c _ hc

/-- Every text of the pattern is taken as a whole when it stands alone. -/
def TakesWhole (pattern : Pattern α) : Prop :=
  ∀ t ∈ pattern.language, pattern.matcher t = some (t, [])

theorem takesWhole_one (p : α → Bool) : TakesWhole (one p) := by
  rintro _ ⟨c, rfl, hc⟩
  exact one_eq_some_iff.mpr ⟨c, rfl, hc, rfl⟩

theorem takesWhole_many (p : α → Bool) : TakesWhole (many p) :=
  fun t h => many_eq_some_iff.mpr ⟨(List.append_nil t).symm, h, rfl⟩

theorem TakesWhole.optional (hpart : TakesWhole part) : TakesWhole (optional part) := by
  rintro t (h | rfl)
  · exact optional_eq_some_iff.mpr (Or.inl (hpart t h))
  · -- The part may refuse the empty text or take nothing of it, which is the same here.
    cases hnil : part.matcher [] with
    | none => exact optional_eq_some_iff.mpr (Or.inr ⟨hnil, rfl, rfl⟩)
    | some result =>
        obtain ⟨t, rest⟩ := result
        obtain ⟨rfl, rfl⟩ := List.append_eq_nil_iff.mp (splits_matcher part _ _ _ hnil)
        exact optional_eq_some_iff.mpr (Or.inl hnil)

/-- The texts of a choice are taken as wholes where those of the second pattern are refused by the
first. -/
theorem TakesWhole.choice (hfirst : TakesWhole first) (hsecond : TakesWhole second)
    (hapart : ∀ t ∈ second.language, first.matcher t = none) :
    TakesWhole (choice first second) := by
  rintro t (h | h)
  · exact orElse_eq_some_iff.mpr (Or.inl (hfirst t h))
  · exact orElse_eq_some_iff.mpr (Or.inr ⟨hapart t h, hsecond t h⟩)

/-- The texts of a sequence are taken as wholes where the first pattern stops before the second. -/
theorem TakesWhole.sequence (hfirst : TakesWhole first) (hsecond : TakesWhole second)
    (hstops : ∀ u v, v ∈ second.language → first.matcher u = some (u, []) →
      first.matcher (u ++ v) = some (u, v)) : TakesWhole (sequence first second) := by
  intro t h
  obtain ⟨u, hu, v, hv, rfl⟩ := Language.mem_mul.mp h
  exact sequence_eq_some_iff.mpr ⟨u, v, v, rfl, hstops u v hv (hfirst u hu), hsecond v hv⟩

/-- A single symbol ends before everything. -/
theorem TakesWhole.one_sequence (p : α → Bool) (hsecond : TakesWhole second) :
    TakesWhole (Pattern.sequence (one p) second) :=
  (takesWhole_one p).sequence hsecond fun u v _ hu =>
    selfDelimiting_one p u [] v (by rwa [List.append_nil])

/-- A greedy pattern stops before a symbol that none of its texts has. -/
theorem TakesWhole.sequence_of_apart (hfirst : TakesWhole first) (hsecond : TakesWhole second)
    (hgreedy : Greedy first.matcher)
    (hapart : ∀ c, second.begins c = true → first.uses c = false) :
    TakesWhole (Pattern.sequence first second) :=
  hfirst.sequence hsecond fun u v hv hu =>
    hgreedy.ends (splits_matcher first) (takesOnly_matcher first) []
      (by rwa [List.nil_append, List.append_nil]) (head?_any_of_apart hapart hv)

/-- Where a search goes straight, a greedy reading that takes whole texts takes the longest first
part in the language. -/
theorem matcher_eq_some_iff {pattern : Pattern α} (hstraight : Straight pattern)
    (hgreedy : Greedy pattern.matcher) (hwhole : TakesWhole pattern) :
    pattern.matcher s = some (t, rest) ↔ IsLongest (· ∈ pattern.language) s t rest := by
  have hlongest : ∀ {t rest}, pattern.matcher s = some (t, rest) →
      IsLongest (· ∈ pattern.language) s t rest := by
    intro t rest h
    obtain ⟨rfl, ht⟩ :=
      (mem_tries_iff pattern).mp (List.mem_of_mem_head? ((hstraight s).trans h))
    refine ⟨ht, rfl, ?_⟩
    rintro u hu ⟨last, hlast⟩
    obtain ⟨w, _, hw⟩ := hgreedy u [] last (by rw [List.append_nil]; exact hwhole u hu)
    rw [hlast, h, Option.some.injEq, Prod.mk.injEq] at hw
    rw [hw.1, List.length_append]
    exact Nat.le_add_right _ _
  refine ⟨hlongest, fun h => ?_⟩
  obtain ⟨w, last, hw⟩ := hgreedy t [] rest (by rw [List.append_nil]; exact hwhole t h.holds)
  rw [← h.append_eq] at hw
  obtain ⟨heq, hrest⟩ := h.unique (hlongest hw)
  rw [heq, hrest]
  exact hw

end Pattern

end Respell.Text
