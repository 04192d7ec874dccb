import Mathlib.Data.List.Nodup
import Respell.Identifier
import Respell.Vocabulary

/-!
# Vocabularies as two-way mappings

No two keywords of a vocabulary are spelled alike, so the lookup of a spelling undoes the lookup of
a canonical name. `canonical?_eq_some_iff` states that each of the two finds what the other comes
from.
-/

namespace Respell.Vocabulary

/-- A vocabulary is its name with its pairs. -/
instance : DecidableEq Vocabulary := fun v w =>
  decidable_of_iff (v.name = w.name ∧ v.pairs = w.pairs) <| by
    constructor
    · rintro ⟨hname, hpairs⟩
      obtain ⟨name, ⟨entries, _⟩, _⟩ := v
      obtain ⟨_, ⟨_, _⟩, _⟩ := w
      cases hname
      cases hpairs
      rfl
    · rintro rfl
      exact ⟨rfl, rfl⟩

/-- Every spelling of the vocabulary is a name. -/
def SpellsNames (v : Vocabulary) : Prop := ∀ e ∈ v.pairs, Identifier.isName e.2.toList = true

instance (v : Vocabulary) : Decidable v.SpellsNames :=
  inferInstanceAs (Decidable (∀ e ∈ v.pairs, _))

variable {v : Vocabulary} {canonical spelling : String}

/-- The lookup of a canonical name finds the spelling that is listed with it. -/
theorem spelling?_eq_some_iff_mem :
    v.spelling? canonical = some spelling ↔ (canonical, spelling) ∈ v.pairs :=
  (v.keywords.mem_entries_iff canonical spelling).symm

/-- Of two listed pairs with one spelling both are the same. -/
theorem eq_of_mem_pairs {other : String} (h : (canonical, spelling) ∈ v.pairs)
    (hother : (other, spelling) ∈ v.pairs) : canonical = other := by
  have hinj := List.inj_on_of_nodup_map v.distinct h hother rfl
  exact congrArg Prod.fst hinj

/-- The lookup of a spelling finds the canonical name that is listed with it. -/
theorem canonical?_eq_some_iff_mem :
    v.canonical? spelling = some canonical ↔ (canonical, spelling) ∈ v.pairs := by
  constructor
  · intro h
    obtain ⟨e, hfind, rfl⟩ := Option.map_eq_some_iff.mp h
    have hspelling : e.2 = spelling := by simpa using List.find?_some hfind
    rw [← hspelling]
    exact List.mem_of_find?_eq_some hfind
  · intro h
    cases hfind : v.keywords.entries.find? fun e => e.2 == spelling with
    | none =>
        have := List.find?_eq_none.mp hfind _ h
        simp at this
    | some e =>
        have hspelling : e.2 = spelling := by simpa using List.find?_some hfind
        have hmem : (e.1, spelling) ∈ v.pairs := hspelling ▸ List.mem_of_find?_eq_some hfind
        rw [canonical?, hfind, eq_of_mem_pairs h hmem]
        rfl

/-- Each lookup finds what the other one comes from. -/
theorem canonical?_eq_some_iff :
    v.canonical? spelling = some canonical ↔ v.spelling? canonical = some spelling :=
  canonical?_eq_some_iff_mem.trans spelling?_eq_some_iff_mem.symm

/-- A word is a spelling exactly when it has a canonical name. -/
theorem isSpelling_iff {word : String} :
    v.isSpelling word = true ↔ ∃ canonical, v.canonical? word = some canonical := by
  simp only [canonical?_eq_some_iff_mem, isSpelling, List.any_eq_true, beq_iff_eq]
  constructor
  · rintro ⟨e, he, rfl⟩
    exact ⟨e.1, he⟩
  · rintro ⟨canonical, h⟩
    exact ⟨_, h, rfl⟩

end Respell.Vocabulary
