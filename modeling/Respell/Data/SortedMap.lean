/-!
# Maps in the order of their keys

A map from strings is kept as the list of its entries in ascending order of the keys, so that two
maps with the same entries are equal and every listing comes out in one order. Strings are compared
character by character, which is also the order of their bytes in UTF-8.

`get?_insert` describes the insertion by what is found afterwards, `mem_entries_iff` ties lookup to
the list of entries, and `get?_ofList` states that of several values for one key the last remains.
-/

namespace Respell

/-- Entries with strictly ascending keys. -/
structure SortedMap (α : Type) where
  entries : List (String × α)
  ascending : entries.Pairwise (fun a b => a.1 < b.1)

namespace SortedMap

variable {α : Type}

/-- The map without entries. -/
def empty : SortedMap α := ⟨[], List.Pairwise.nil⟩

/-- The entries with `key` bound to `value`: an entry of the same key is replaced, a new one is put
in its place in the order. -/
def insertEntry (key : String) (value : α) : List (String × α) → List (String × α)
  | [] => [(key, value)]
  | (k, v) :: rest =>
    if key < k then (key, value) :: (k, v) :: rest
    else if key = k then (key, value) :: rest
    else (k, v) :: insertEntry key value rest

/-- Insertion adds no entry but the new one. -/
theorem mem_of_mem_insertEntry {key : String} {value : α} {entries : List (String × α)}
    {e : String × α} (h : e ∈ insertEntry key value entries) :
    e = (key, value) ∨ e ∈ entries := by
  induction entries with
  | nil => simpa [insertEntry] using h
  | cons entry rest ih =>
      obtain ⟨k, v⟩ := entry
      rw [insertEntry] at h
      split at h
      · exact List.mem_cons.mp h
      · split at h
        · rcases List.mem_cons.mp h with h | h
          · exact Or.inl h
          · exact Or.inr (List.mem_cons_of_mem _ h)
        · rcases List.mem_cons.mp h with h | h
          · exact Or.inr (h ▸ List.mem_cons_self)
          · exact (ih h).imp id (List.mem_cons_of_mem _)

/-- Two different strings, the first of which is not smaller, stand in the opposite order. -/
theorem lt_of_not_lt_of_ne {a b : String} (h : ¬ a < b) (hne : a ≠ b) : b < a := by
  by_cases hba : b < a
  · exact hba
  · exact absurd (String.le_antisymm (String.not_lt.mp hba) (String.not_lt.mp h)) hne

/-- Insertion keeps the order. -/
theorem ascending_insertEntry (key : String) (value : α) {entries : List (String × α)}
    (h : entries.Pairwise (fun a b => a.1 < b.1)) :
    (insertEntry key value entries).Pairwise (fun a b => a.1 < b.1) := by
  induction entries with
  | nil => simp [insertEntry]
  | cons entry rest ih =>
      obtain ⟨k, v⟩ := entry
      obtain ⟨hfirst, hrest⟩ := List.pairwise_cons.mp h
      rw [insertEntry]
      split
      · rename_i hlt
        refine List.pairwise_cons.mpr ⟨fun e he => ?_, h⟩
        rcases List.mem_cons.mp he with rfl | he
        · exact hlt
        · exact String.lt_trans hlt (hfirst e he)
      · split
        · rename_i heq
          subst heq
          exact List.pairwise_cons.mpr ⟨hfirst, hrest⟩
        · rename_i hlt hne
          refine List.pairwise_cons.mpr ⟨fun e he => ?_, ih hrest⟩
          rcases mem_of_mem_insertEntry he with rfl | he
          · exact lt_of_not_lt_of_ne hlt hne
          · exact hfirst e he

/-- The map with `key` bound to `value`, whatever `key` was bound to before. -/
def insert (m : SortedMap α) (key : String) (value : α) : SortedMap α :=
  ⟨insertEntry key value m.entries, ascending_insertEntry key value m.ascending⟩

/-- The map of a list of entries, of which a later one replaces an earlier one of the same key. -/
def ofList (entries : List (String × α)) : SortedMap α :=
  entries.foldl (fun m e => m.insert e.1 e.2) empty

/-- The value bound to `key`, or `none` when there is none. -/
def get? (m : SortedMap α) (key : String) : Option α := m.entries.lookup key

/-- The keys in ascending order. -/
def keys (m : SortedMap α) : List String := m.entries.map Prod.fst

/-- The values in the order of their keys. -/
def values (m : SortedMap α) : List α := m.entries.map Prod.snd

/-- The number of entries. -/
def size (m : SortedMap α) : Nat := m.entries.length

/-- There is no entry. -/
def isEmpty (m : SortedMap α) : Bool := m.entries.isEmpty

/-- The lookup in a list with one more entry. -/
theorem lookup_cons (key k : String) (v : α) (rest : List (String × α)) :
    List.lookup key ((k, v) :: rest) = if key = k then some v else rest.lookup key := by
  by_cases h : key = k
  · rw [if_pos h, h, List.lookup_cons_self]
  · have hbeq : (key == k) = false := by simpa using h
    rw [if_neg h, List.lookup_cons, hbeq]

/-- Insertion changes what is found for its key and for no other. -/
theorem lookup_insertEntry (key : String) (value : α) (entries : List (String × α))
    (other : String) :
    (insertEntry key value entries).lookup other =
      if other = key then some value else entries.lookup other := by
  induction entries with
  | nil => rw [insertEntry, lookup_cons]
  | cons entry rest ih =>
      obtain ⟨k, v⟩ := entry
      rw [insertEntry]
      split
      · rw [lookup_cons]
      · split
        · rename_i heq
          subst heq
          simp only [lookup_cons]
          split <;> rfl
        · rename_i hne
          simp only [lookup_cons, ih]
          by_cases hok : other = k
          · have : other ≠ key := fun h => hne (h.symm.trans hok)
            rw [if_pos hok, if_neg this, if_pos hok]
          · rw [if_neg hok, if_neg hok]

@[simp] theorem get?_empty (key : String) : (empty : SortedMap α).get? key = none := rfl

/-- After an insertion its key has the new value and every other key the value it had. -/
theorem get?_insert (m : SortedMap α) (key : String) (value : α) (other : String) :
    (m.insert key value).get? other = if other = key then some value else m.get? other :=
  lookup_insertEntry key value m.entries other

/-- Of several values for one key the last remains. -/
theorem get?_ofList (entries : List (String × α)) (key : String) :
    (ofList entries).get? key = entries.reverse.lookup key := by
  have hfold : ∀ m : SortedMap α,
      (entries.foldl (fun m e => m.insert e.1 e.2) m).get? key =
        ((entries.reverse.lookup key).or (m.get? key)) := by
    induction entries with
    | nil => simp
    | cons entry rest ih =>
        intro m
        obtain ⟨k, v⟩ := entry
        rw [List.foldl_cons, ih, get?_insert, List.reverse_cons, List.lookup_append, lookup_cons]
        cases rest.reverse.lookup key with
        | some w => simp
        | none =>
            by_cases h : key = k
            · simp [h]
            · simp [h]
  rw [ofList, hfold, get?_empty, Option.or_none]

/-- An entry is in the list exactly when the lookup of its key finds its value. -/
theorem mem_entries_iff (m : SortedMap α) (key : String) (value : α) :
    (key, value) ∈ m.entries ↔ m.get? key = some value := by
  obtain ⟨entries, hm⟩ := m
  simp only [get?]
  induction entries with
  | nil => simp
  | cons entry rest ih =>
      obtain ⟨k, v⟩ := entry
      obtain ⟨hfirst, hrest⟩ := List.pairwise_cons.mp hm
      rw [List.mem_cons, lookup_cons, ih hrest]
      by_cases h : key = k
      · subst h
        rw [if_pos rfl]
        constructor
        · rintro (heq | hmem)
          · rw [(Prod.mk.inj heq).2]
          · have := hfirst _ ((ih hrest).mpr hmem)
            exact absurd this (String.lt_irrefl _)
        · intro heq
          exact Or.inl (by rw [Option.some.inj heq])
      · rw [if_neg h]
        constructor
        · rintro (heq | hmem)
          · exact absurd (Prod.mk.inj heq).1 h
          · exact hmem
        · exact Or.inr

end SortedMap

end Respell
