import Respell.Data.SortedMap
import Respell.Error

/-!
# Vocabularies

A vocabulary gives each of its keywords, known by a canonical name, one spelling, and no two
keywords the same one, so that it can be read in both directions. `ofPairs` builds one from a list
of pairs or names the first spelling that stands in the way; `firstRepeated_eq_none_iff` states that
this happens only when a spelling occurs twice.
-/

namespace Respell

/-- The first string of the list that occurs among `seen` or earlier in the list. -/
def firstRepeated (seen : List String) : List String → Option String
  | [] => none
  | s :: rest => if s ∈ seen then some s else firstRepeated (s :: seen) rest

/-- Nothing is repeated exactly when the strings differ from each other and from those seen. -/
theorem firstRepeated_eq_none_iff (seen strings : List String) :
    firstRepeated seen strings = none ↔ strings.Nodup ∧ ∀ s ∈ strings, s ∉ seen := by
  induction strings generalizing seen with
  | nil => simp [firstRepeated]
  | cons s rest ih =>
      rw [firstRepeated]
      by_cases h : s ∈ seen
      · simp [h]
      · rw [if_neg h, ih, List.nodup_cons]
        constructor
        · rintro ⟨hnodup, hnew⟩
          refine ⟨⟨fun hs => hnew s hs List.mem_cons_self, hnodup⟩, fun t ht => ?_⟩
          rcases List.mem_cons.mp ht with rfl | ht
          · exact h
          · exact fun hseen => hnew t ht (List.mem_cons_of_mem _ hseen)
        · rintro ⟨⟨hs, hnodup⟩, hnew⟩
          refine ⟨hnodup, fun t ht hmem => ?_⟩
          rcases List.mem_cons.mp hmem with rfl | hseen
          · exact hs ht
          · exact hnew t (List.mem_cons_of_mem _ ht) hseen

/-- A named set of keywords: from canonical names to spellings, no two of them alike. -/
structure Vocabulary where
  name : String
  keywords : SortedMap String
  distinct : keywords.values.Nodup

namespace Vocabulary

/-- The vocabulary of a list of pairs of a canonical name and a spelling. Of several pairs with one
canonical name the last counts; a spelling that then belongs to two names is an error. -/
def ofPairs (name : String) (pairs : List (String × String)) : Except Error Vocabulary :=
  let keywords := SortedMap.ofList pairs
  match h : firstRepeated [] keywords.values with
  | none => .ok ⟨name, keywords, ((firstRepeated_eq_none_iff _ _).mp h).1⟩
  | some spelling => .error (.duplicateSpelling name spelling)

/-- The spelling of a canonical name. -/
def spelling? (v : Vocabulary) (canonical : String) : Option String := v.keywords.get? canonical

/-- The canonical name behind a spelling. -/
def canonical? (v : Vocabulary) (spelling : String) : Option String :=
  (v.keywords.entries.find? fun e => e.2 == spelling).map Prod.fst

/-- The word is the spelling of a keyword. -/
def isSpelling (v : Vocabulary) (word : String) : Bool :=
  v.keywords.entries.any fun e => e.2 == word

/-- The pairs of a canonical name and its spelling, in ascending order of the names. -/
def pairs (v : Vocabulary) : List (String × String) := v.keywords.entries

/-- The number of keywords. -/
def size (v : Vocabulary) : Nat := v.keywords.size

/-- There is no keyword. -/
def isEmpty (v : Vocabulary) : Bool := v.keywords.isEmpty

end Vocabulary

end Respell
