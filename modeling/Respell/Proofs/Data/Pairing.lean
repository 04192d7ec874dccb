import Mathlib.Data.List.Induction
import Mathlib.Data.List.Nodup
import Mathlib.Tactic.ByContra

/-!
# Opening and closing members in pairs

Some members of a list open something and some close something, and a member may do both. Every
closing member closes the nearest opening one before it that is not closed yet. `partner` says so by
the places in the list, without a stack, and `unmatched` lists the places of the opening members
that remain. `unmatched_concat` states how one more member changes what remains: it takes the front
away when it closes something, and then it comes to the front when it opens something. Pairs do not
cross, which `exists_partner_of_between` and `partner_of_between` state of the members between the
two of a pair.
-/

namespace Respell.Pairing

variable {α : Type} (opens closes : α → Bool)

/-- The place of the opening member that the closing one at the place `j` closes: of those before it
that no earlier closing member closes, the nearest. -/
def partner (l : List α) (j : Nat) : Option Nat :=
  if l[j]?.any closes then
    ((List.range j).reverse.filter fun i =>
      l[i]?.any opens ∧ ∀ k : Fin j, partner l k ≠ some i).head?
  else none
termination_by j

/-- The places of the opening members that no closing one closes, the latest first. -/
def unmatched (l : List α) : List Nat :=
  (List.range l.length).reverse.filter fun i =>
    l[i]?.any opens ∧ ∀ k < l.length, partner opens closes l k ≠ some i

/-- All members are in pairs: every closing one closes an opening one, and every opening one is
closed. -/
structure Balanced (l : List α) : Prop where
  closing : ∀ j, l[j]?.any closes = true → ∃ i, partner opens closes l j = some i
  opening : ∀ i, l[i]?.any opens = true → ∃ j, partner opens closes l j = some i

variable {opens closes} {l more : List α} {a : α} {i j k : Nat}

/-- A member that is there stands at a place of the list. -/
theorem lt_of_any {p : α → Bool} (h : l[i]?.any p = true) : i < l.length := by
  by_contra hle
  rw [List.getElem?_eq_none (by omega)] at h
  cases h

/-- A place of a list parts the list. -/
theorem split_of_lt (h : j < l.length) :
    ∃ front a back, l = front ++ a :: back ∧ front.length = j := by
  refine ⟨l.take j, l[j], l.drop (j + 1), ?_, ?_⟩
  · rw [← List.drop_eq_getElem_cons h, List.take_append_drop]
  · rw [List.length_take]
    omega

/-- A member with a property parts the list. -/
theorem split_of_any {p : α → Bool} (h : l[j]?.any p = true) :
    ∃ front a back, l = front ++ a :: back ∧ front.length = j ∧ p a = true := by
  obtain ⟨front, a, back, rfl, rfl⟩ := split_of_lt (lt_of_any h)
  rw [List.getElem?_append_right (Nat.le_refl _), Nat.sub_self] at h
  exact ⟨front, a, back, rfl, rfl, h⟩

/-- A closing member closes an opening one that stands before it. -/
theorem opens_of_partner (h : partner opens closes l j = some i) :
    i < j ∧ l[i]?.any opens = true ∧ l[j]?.any closes = true := by
  rw [partner] at h
  split at h
  · rename_i hcloses
    have hmem := List.mem_of_head? h
    rw [List.mem_filter, List.mem_reverse, List.mem_range, decide_eq_true_eq] at hmem
    exact ⟨hmem.1, hmem.2.1, hcloses⟩
  · cases h

/-- No earlier member has closed what a closing one closes. -/
theorem partner_ne_of_lt (h : partner opens closes l j = some i) (hkj : k < j) :
    partner opens closes l k ≠ some i := by
  rw [partner] at h
  split at h
  · have hmem := List.mem_of_head? h
    rw [List.mem_filter, decide_eq_true_eq] at hmem
    exact hmem.2.2 ⟨k, hkj⟩
  · cases h

/-- An opening member is closed at most once. -/
theorem eq_of_partner (hj : partner opens closes l j = some i)
    (hk : partner opens closes l k = some i) : j = k := by
  rcases Nat.lt_trichotomy j k with hlt | heq | hlt
  · exact absurd hj (partner_ne_of_lt hk hlt)
  · exact heq
  · exact absurd hk (partner_ne_of_lt hj hlt)

/-- Only a closing member closes anything. -/
theorem partner_eq_none (h : l[j]?.any closes = false) : partner opens closes l j = none := by
  rw [partner, if_neg (by simp [h])]

/-- What a closing member closes does not depend on the members behind it. -/
theorem partner_append (h : j < l.length) :
    partner opens closes (l ++ more) j = partner opens closes l j := by
  induction j using Nat.strongRecOn with
  | _ j ih =>
      rw [partner, partner, List.getElem?_append_left h]
      split
      · refine congrArg List.head? (List.filter_congr fun i hi => decide_eq_decide.mpr ?_)
        rw [List.mem_reverse, List.mem_range] at hi
        rw [List.getElem?_append_left (Nat.lt_trans hi h)]
        refine and_congr Iff.rfl (forall_congr' fun k => ?_)
        rw [ih k k.isLt (Nat.lt_trans k.isLt h)]
      · rfl

/-- Behind a member that neither opens nor closes anything the same members close the same. -/
theorem partner_cons (hopens : opens a = false) (hcloses : closes a = false) (l : List α)
    (j : Nat) :
    partner opens closes (a :: l) (j + 1) = (partner opens closes l j).map (· + 1) := by
  induction j using Nat.strongRecOn with
  | _ j ih =>
      have hfirst : partner opens closes (a :: l) 0 = none := partner_eq_none hcloses
      have hshift : ∀ i k, (partner opens closes l k).map (· + 1) = some (i + 1) ↔
          partner opens closes l k = some i := by
        intro i k
        cases partner opens closes l k <;> simp
      rw [partner, partner, List.getElem?_cons_succ]
      split
      · -- The place 0 falls away, and every other one is one further on.
        rw [List.range_succ_eq_map, List.reverse_cons, List.filter_append, ← List.map_reverse,
          List.filter_map, List.filter_cons_of_neg (by simp [hopens]), List.filter_nil,
          List.append_nil, List.head?_map]
        refine congrArg (Option.map _) (congrArg List.head? (List.filter_congr fun i _ => ?_))
        refine decide_eq_decide.mpr (and_congr Iff.rfl ⟨fun hfree k hk => ?_, fun hfree k hk => ?_⟩)
        · refine hfree ⟨k + 1, Nat.succ_lt_succ k.isLt⟩ ?_
          show partner opens closes (a :: l) (k + 1) = some (i + 1)
          rw [ih k k.isLt, hshift, hk]
        · obtain ⟨k, hlt⟩ := k
          cases k with
          | zero =>
              rw [hfirst] at hk
              cases hk
          | succ k =>
              have hlt := Nat.lt_of_succ_lt_succ hlt
              rw [ih k hlt, hshift] at hk
              exact hfree ⟨k, hlt⟩ hk
      · rfl

/-- A closing member that is added closes the nearest one that remains. -/
theorem partner_length (l : List α) (a : α) : partner opens closes (l ++ [a]) l.length =
    if closes a then (unmatched opens closes l).head? else none := by
  rw [partner, List.getElem?_concat_length, Option.any_some, unmatched]
  split
  · refine congrArg List.head? (List.filter_congr fun i hi => decide_eq_decide.mpr ?_)
    rw [List.mem_reverse, List.mem_range] at hi
    rw [List.getElem?_append_left hi, Fin.forall_iff]
    refine and_congr Iff.rfl (forall_congr' fun k => forall_congr' fun hk => ?_)
    rw [partner_append hk]
  · rfl

/-- An opening member of the list remains where nothing closes it. -/
theorem mem_unmatched_iff : i ∈ unmatched opens closes l ↔
    l[i]?.any opens = true ∧ ∀ j, partner opens closes l j ≠ some i := by
  rw [unmatched, List.mem_filter, List.mem_reverse, List.mem_range, decide_eq_true_eq]
  constructor
  · intro ⟨_, hopens, hfree⟩
    refine ⟨hopens, fun j hj => hfree j ?_ hj⟩
    exact lt_of_any (opens_of_partner hj).2.2
  · intro ⟨hopens, hfree⟩
    exact ⟨lt_of_any hopens, hopens, fun j _ => hfree j⟩

/-- No place is listed twice among those that remain. -/
theorem nodup_unmatched (opens closes : α → Bool) (l : List α) :
    (unmatched opens closes l).Nodup :=
  (List.nodup_reverse.mpr List.nodup_range).filter _

/-- Without its first member, a list that lists nothing twice holds what that member is not. -/
theorem filter_ne_head? {places : List Nat} (h : places.Nodup) :
    (places.filter fun i => places.head? ≠ some i) = places.tail := by
  cases places with
  | nil => rfl
  | cons m places =>
      rw [List.filter_cons_of_neg (by simp), List.tail_cons, List.filter_eq_self]
      intro i hi
      have hne : m ≠ i := fun hmi => (List.nodup_cons.mp h).1 (hmi ▸ hi)
      simpa using hne

/-- A member that is added takes the nearest one that remains away when it closes something, and
remains itself when it opens something. -/
theorem unmatched_concat (opens closes : α → Bool) (l : List α) (a : α) :
    unmatched opens closes (l ++ [a]) = (if opens a then [l.length] else []) ++
      if closes a then (unmatched opens closes l).tail else unmatched opens closes l := by
  have hlast : ∀ k < l.length + 1, partner opens closes (l ++ [a]) k ≠ some l.length := by
    intro k hk hpartner
    have := (opens_of_partner hpartner).1
    omega
  have hkept : ((List.range l.length).reverse.filter fun i => (l ++ [a])[i]?.any opens = true ∧
      ∀ k < l.length + 1, partner opens closes (l ++ [a]) k ≠ some i) =
      (unmatched opens closes l).filter fun i =>
        partner opens closes (l ++ [a]) l.length ≠ some i := by
    rw [unmatched, List.filter_filter]
    refine List.filter_congr fun i hi => ?_
    rw [List.mem_reverse, List.mem_range] at hi
    rw [List.getElem?_append_left hi, ← Bool.decide_and, decide_eq_decide]
    constructor
    · intro ⟨hopens, hfree⟩
      refine ⟨hfree _ (Nat.lt_succ_self _), hopens, fun k hk => ?_⟩
      rw [← partner_append hk]
      exact hfree k (Nat.lt_succ_of_lt hk)
    · intro ⟨hnew, hopens, hfree⟩
      refine ⟨hopens, fun k hk => ?_⟩
      rcases Nat.lt_succ_iff_lt_or_eq.mp hk with hk | rfl
      · rw [partner_append hk]
        exact hfree k hk
      · exact hnew
  rw [unmatched, List.length_append, List.length_singleton, List.range_succ, List.reverse_append,
    List.reverse_singleton, List.filter_append, hkept, partner_length]
  refine congrArg₂ (· ++ ·) ?_ ?_
  · rw [List.filter_cons, List.filter_nil, List.getElem?_concat_length, Option.any_some]
    simp only [and_iff_left hlast, decide_eq_true_eq]
  · split
    · exact filter_ne_head? (nodup_unmatched opens closes l)
    · simp

/-- A closing member closes something when an opening one before it is not closed yet, and none that
stands farther away. -/
theorem exists_partner (hcloses : l[j]?.any closes = true) (hopens : l[i]?.any opens = true)
    (hij : i < j) (hfree : ∀ k < j, partner opens closes l k ≠ some i) :
    ∃ k, partner opens closes l j = some k ∧ i ≤ k := by
  rw [partner, if_pos hcloses]
  have hmem : i ∈ (List.range j).reverse.filter fun i =>
      l[i]?.any opens ∧ ∀ k : Fin j, partner opens closes l k ≠ some i := by
    rw [List.mem_filter, List.mem_reverse, List.mem_range, decide_eq_true_eq]
    exact ⟨hij, hopens, fun k => hfree k k.isLt⟩
  have hsorted : ((List.range j).reverse.filter fun i =>
      l[i]?.any opens ∧ ∀ k : Fin j, partner opens closes l k ≠ some i).Pairwise (· > ·) :=
    (List.pairwise_reverse.mpr List.pairwise_lt_range).filter _
  obtain ⟨k, places, hplaces⟩ := List.exists_cons_of_ne_nil (List.ne_nil_of_mem hmem)
  rw [hplaces] at hmem hsorted ⊢
  refine ⟨k, rfl, ?_⟩
  rcases List.mem_cons.mp hmem with rfl | hi
  · exact Nat.le_refl _
  · exact Nat.le_of_lt ((List.pairwise_cons.mp hsorted).1 i hi)

/-- A member that opens something between the two of a pair is closed between them. -/
theorem exists_partner_of_between (h : partner opens closes l j = some i) (hik : i < k)
    (hkj : k < j) (hopens : l[k]?.any opens = true) :
    ∃ m, k < m ∧ m < j ∧ partner opens closes l m = some k := by
  by_contra hopen
  have hfree : ∀ m < j, partner opens closes l m ≠ some k := by
    intro m hmj hm
    exact hopen ⟨m, (opens_of_partner hm).1, hmj, hm⟩
  obtain ⟨n, hn, hkn⟩ := exists_partner (opens_of_partner h).2.2 hopens hkj hfree
  rw [h, Option.some.injEq] at hn
  omega

/-- A member that closes something between the two of a pair closes a member between them. -/
theorem partner_of_between (h : partner opens closes l j = some i) (hik : i < k) (hkj : k < j)
    (hcloses : l[k]?.any closes = true) :
    ∃ m, i < m ∧ partner opens closes l k = some m := by
  have hfree : ∀ m < k, partner opens closes l m ≠ some i :=
    fun m hmk => partner_ne_of_lt h (Nat.lt_trans hmk hkj)
  obtain ⟨m, hm, him⟩ := exists_partner hcloses (opens_of_partner h).2.1 hik hfree
  have hne : m ≠ i := by
    intro heq
    exact partner_ne_of_lt h hkj (heq ▸ hm)
  exact ⟨m, by omega, hm⟩

section Kinds

variable {opens' closes' : α → Bool}

/-- Where the first member of a list has a property, it is the first one that has it. -/
theorem head?_filter {places : List Nat} {p : Nat → Bool} (h : ∀ i ∈ places.head?, p i = true) :
    (places.filter p).head? = places.head? := by
  cases places with
  | nil => rfl
  | cons i places =>
      rw [List.filter_cons_of_pos (h i rfl)]
      rfl

/-- Among the members there may be some of a kind of their own. Where no pair has only one member of
the kind, a member of the kind closes what it would close if there were no others. -/
theorem partner_eq_of_kind (hopens : ∀ a, opens' a = true → opens a = true)
    (hcloses : ∀ a, closes' a = true → closes a = true)
    (hproper : ∀ i j, partner opens closes l j = some i → l[i]?.any opens' = l[j]?.any closes')
    (hj : l[j]?.any closes' = true) :
    partner opens' closes' l j = partner opens closes l j := by
  have hany : ∀ {p q : α → Bool}, (∀ a, p a = true → q a = true) → ∀ {k : Nat},
      l[k]?.any p = true → l[k]?.any q = true := by
    intro p q hpq k hk
    obtain ⟨a, ha, hp⟩ := Option.any_eq_true _ _ |>.mp hk
    exact Option.any_eq_true _ _ |>.mpr ⟨a, ha, hpq a hp⟩
  induction j using Nat.strongRecOn with
  | _ j ih =>
      -- Of what is not closed yet, the members of the kind are the same either way.
      have hsame : ((List.range j).reverse.filter fun i =>
          l[i]?.any opens' ∧ ∀ k : Fin j, partner opens' closes' l k ≠ some i) =
          ((List.range j).reverse.filter fun i =>
            l[i]?.any opens ∧ ∀ k : Fin j, partner opens closes l k ≠ some i).filter
              fun i => l[i]?.any opens' := by
        rw [List.filter_filter]
        refine List.filter_congr fun i _ => ?_
        rw [Bool.eq_iff_iff, Bool.and_eq_true, decide_eq_true_eq, decide_eq_true_eq]
        constructor
        · intro ⟨hi, hfree⟩
          refine ⟨hi, hany hopens hi, fun k hk => hfree k ?_⟩
          rw [ih k k.isLt (by rw [← hproper i k hk, hi]), hk]
        · intro ⟨hi, _, hfree⟩
          refine ⟨hi, fun k hk => hfree k ?_⟩
          rw [← ih k k.isLt (opens_of_partner hk).2.2, hk]
      rw [partner, if_pos hj, hsame, partner, if_pos (hany hcloses hj)]
      refine head?_filter fun i hi => ?_
      have hpartner : partner opens closes l j = some i := by
        rw [partner, if_pos (hany hcloses hj)]
        exact hi
      rw [hproper i j hpartner, hj]

end Kinds

end Respell.Pairing
