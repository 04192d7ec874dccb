import Respell.Vocabulary

/-!
# Dictionaries

A dictionary holds vocabularies under their names and carries a keyword from one to another: from
its spelling back to the canonical name, and from there to the other spelling. `name_of_get` states
that a vocabulary is found under its own name only.
-/

namespace Respell

/-- Vocabularies, each under its own name. -/
structure Dictionary where
  subsets : SortedMap Vocabulary
  named : ∀ e ∈ subsets.entries, e.2.name = e.1

namespace Dictionary

/-- The dictionary without vocabularies. -/
def empty : Dictionary := ⟨SortedMap.empty, fun _ h => nomatch h⟩

/-- The dictionary with `v` under its own name, in the place of any vocabulary of that name. -/
def insert (d : Dictionary) (v : Vocabulary) : Dictionary where
  subsets := d.subsets.insert v.name v
  named := by
    intro e he
    rcases SortedMap.mem_of_mem_insertEntry he with rfl | he
    · rfl
    · exact d.named e he

/-- The names of the vocabularies in ascending order. -/
def names (d : Dictionary) : List String := d.subsets.keys

/-- The vocabulary of a name. -/
def get (d : Dictionary) (subset : String) : Except Error Vocabulary :=
  match d.subsets.get? subset with
  | some v => .ok v
  | none => .error (.unknownSubset subset)

/-- The vocabulary found under a name has that name. -/
theorem name_of_get {d : Dictionary} {subset : String} {v : Vocabulary}
    (h : d.get subset = .ok v) : v.name = subset := by
  rw [get] at h
  split at h
  · rename_i found hfound
    cases h
    exact d.named (subset, v) ((SortedMap.mem_entries_iff _ _ _).mpr hfound)
  · cases h

/-- The spelling in `destination` of the keyword that `source` spells `word`. The vocabularies are
looked up first, `source` before `destination`. -/
def respell (d : Dictionary) (word source destination : String) : Except Error String := do
  let spoken ← d.get source
  let wanted ← d.get destination
  match (spoken.canonical? word).bind wanted.spelling? with
  | some spelling => .ok spelling
  | none => .error (.noCounterpart word source destination)

/-- By how many bytes the text grows when `word` is respelled. -/
def growth (d : Dictionary) (word source destination : String) : Except Error Int := do
  let spelling ← d.respell word source destination
  return (spelling.utf8ByteSize : Int) - (word.utf8ByteSize : Int)

end Dictionary

end Respell
