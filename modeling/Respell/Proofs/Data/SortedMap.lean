import Mathlib.Data.List.Dedup
import Respell.Data.SortedMap

/-!
# Maps built from lists

A list may have several entries of one key, and the map of the list keeps the last of them.
`IsLast` says so of the list alone, `mem_ofList_iff` states that these are the entries of the map,
and `size_ofList` counts them by the different keys. Two maps with the same entries are equal, since
their order leaves no choice.
-/

namespace Respell.SortedMap

variable {α : Type} {entries : List (String × α)} {key : String} {value : α} {m n : SortedMap α}

/-- The last entry of this key in the list has this value. -/
def IsLast (entries : List (String × α)) (key : String) (value : α) : Prop :=
  ∃ front back, entries = front ++ (key, value) :: back ∧ ∀ e ∈ back, e.1 ≠ key

/-- The map of a list finds the value of the last entry. -/
theorem get?_ofList_eq_some_iff : (ofList entries).get? key = some value ↔
    IsLast entries key value := by
  rw [get?_ofList, List.lookup_eq_some_iff]
  constructor
  · rintro ⟨front, back, hreverse, hfront⟩
    refine ⟨back.reverse, front.reverse, ?_, fun e he => ?_⟩
    · rw [← List.reverse_reverse entries, hreverse]
      simp
    · exact Ne.symm (by simpa using hfront e (List.mem_reverse.mp he))
  · rintro ⟨front, back, rfl, hback⟩
    refine ⟨back.reverse, front.reverse, by simp, fun e he => ?_⟩
    simpa using Ne.symm (hback e (List.mem_reverse.mp he))

/-- The entries of the map of a list are the last ones of their keys. -/
theorem mem_ofList_iff : (key, value) ∈ (ofList entries).entries ↔ IsLast entries key value :=
  (mem_entries_iff _ _ _).trans get?_ofList_eq_some_iff

/-- A key has one last entry. -/
theorem IsLast.unique {other : α} (h : IsLast entries key value) (h' : IsLast entries key other) :
    value = other :=
  Option.some.inj ((get?_ofList_eq_some_iff.mpr h).symm.trans (get?_ofList_eq_some_iff.mpr h'))

/-- Every key of the list has a last entry. -/
theorem exists_isLast_iff : (∃ value, IsLast entries key value) ↔ key ∈ entries.map Prod.fst := by
  simp only [← get?_ofList_eq_some_iff, ← Option.isSome_iff_exists, get?_ofList,
    List.lookup_isSome_iff, List.mem_map, List.mem_reverse, beq_iff_eq]
  exact exists_congr fun e => and_congr_right fun _ => eq_comm

/-- No key stands twice. -/
theorem nodup_keys (m : SortedMap α) : m.keys.Nodup :=
  (List.pairwise_map.mpr m.ascending).imp fun h => String.ne_of_lt h

/-- The map of a list has as many entries as the list has different keys. -/
theorem size_ofList (entries : List (String × α)) :
    (ofList entries).size = (entries.map Prod.fst).dedup.length := by
  have hperm : List.Perm (ofList entries).keys (entries.map Prod.fst).dedup := by
    refine (List.perm_ext_iff_of_nodup (nodup_keys _) (List.nodup_dedup _)).mpr fun key => ?_
    rw [List.mem_dedup, ← exists_isLast_iff, keys, List.mem_map]
    constructor
    · rintro ⟨e, he, rfl⟩
      exact ⟨e.2, mem_ofList_iff.mp he⟩
    · rintro ⟨value, hvalue⟩
      exact ⟨(key, value), mem_ofList_iff.mpr hvalue, rfl⟩
  rw [← hperm.length_eq, keys, List.length_map, size]

/-- Maps with the same entries are equal. -/
theorem eq_of_mem_iff (h : ∀ key value, (key, value) ∈ m.entries ↔ (key, value) ∈ n.entries) :
    m = n := by
  have hnodup : ∀ m : SortedMap α, m.entries.Nodup := fun m => (nodup_keys m).of_map _
  have hperm : List.Perm m.entries n.entries :=
    (List.perm_ext_iff_of_nodup (hnodup m) (hnodup n)).mpr fun e => h e.1 e.2
  have hentries : m.entries = n.entries :=
    hperm.eq_of_pairwise (fun a b _ _ hab hba => absurd (String.lt_trans hab hba)
      (String.lt_irrefl _)) m.ascending n.ascending
  cases m
  cases n
  cases hentries
  rfl

/-- Where the keys ascend every entry is the last one of its key. -/
theorem isLast_iff_mem (h : entries.Pairwise (fun a b => a.1 < b.1)) :
    IsLast entries key value ↔ (key, value) ∈ entries := by
  constructor
  · rintro ⟨front, back, rfl, _⟩
    exact List.mem_append_right _ List.mem_cons_self
  · intro hmem
    obtain ⟨front, back, rfl⟩ := List.append_of_mem hmem
    have hback := (List.pairwise_cons.mp (List.pairwise_append.mp h).2.1).1
    exact ⟨front, back, rfl, fun e he => Ne.symm (String.ne_of_lt (hback e he))⟩

/-- A map is that of the list of its entries. -/
theorem ofList_entries (m : SortedMap α) : ofList m.entries = m :=
  eq_of_mem_iff fun _ _ => mem_ofList_iff.trans (isLast_iff_mem m.ascending)

end Respell.SortedMap
