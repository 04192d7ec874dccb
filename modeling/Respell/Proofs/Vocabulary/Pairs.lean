import Respell.Proofs.Data.SortedMap
import Respell.Proofs.Text.Order
import Respell.Proofs.Vocabulary

/-!
# Vocabularies built from pairs

Of the pairs of one canonical name only the last counts. A vocabulary is built exactly when the
pairs that count have different spellings, and then it is those pairs, to be looked up in both
directions. Otherwise the spelling that is reported is found in the order of the canonical names:
it is that of the least name whose spelling a smaller name has already. `ofPairs_two_way` states
both.
-/

namespace Respell

/-- What is repeated first stands behind strings that differ from each other and from those seen. -/
theorem exists_of_firstRepeated {seen strings : List String} {s : String}
    (h : firstRepeated seen strings = some s) : ∃ front back, strings = front ++ s :: back ∧
      (s ∈ seen ∨ s ∈ front) ∧ firstRepeated seen front = none := by
  induction strings generalizing seen with
  | nil => cases h
  | cons t rest ih =>
      rw [firstRepeated] at h
      by_cases hseen : t ∈ seen
      · rw [if_pos hseen] at h
        cases h
        exact ⟨[], rest, rfl, Or.inl hseen, rfl⟩
      · rw [if_neg hseen] at h
        obtain ⟨front, back, rfl, hmem, hnone⟩ := ih h
        refine ⟨t :: front, back, rfl, ?_, by rw [firstRepeated, if_neg hseen, hnone]⟩
        rw [List.mem_cons] at hmem ⊢
        exact (or_assoc.trans or_left_comm).mp hmem

namespace Vocabulary

open SortedMap (IsLast)
open Text (Precedes precedes_iff)

/-- The spelling of the canonical name is also that of a smaller one. -/
def Clashes (pairs : List (String × String)) (canonical spelling : String) : Prop :=
  IsLast pairs canonical spelling ∧
    ∃ smaller, Precedes smaller canonical ∧ IsLast pairs smaller spelling

/-- The canonical name is the least one whose spelling is also that of a smaller one. -/
def ClashesFirst (pairs : List (String × String)) (canonical spelling : String) : Prop :=
  Clashes pairs canonical spelling ∧
    ∀ other word, Clashes pairs other word → ¬ Precedes other canonical

variable {name canonical spelling : String} {pairs : List (String × String)} {v : Vocabulary}

/-- A vocabulary of pairs consists of its name and of the map of the pairs. -/
theorem ofPairs_eq_ok_iff :
    ofPairs name pairs = .ok v ↔ v.name = name ∧ v.keywords = SortedMap.ofList pairs := by
  rw [ofPairs]
  constructor
  · intro h
    split at h
    · cases h
      exact ⟨rfl, rfl⟩
    · cases h
  · rintro ⟨rfl, hkeywords⟩
    obtain ⟨name, keywords, distinct⟩ := v
    dsimp only at hkeywords
    subst hkeywords
    split
    · rfl
    · rename_i found hfound
      rw [(firstRepeated_eq_none_iff _ _).mpr ⟨distinct, fun _ _ => List.not_mem_nil⟩] at hfound
      cases hfound

/-- The pairs of a vocabulary are those that count. -/
theorem mem_pairs_iff (h : ofPairs name pairs = .ok v) :
    (canonical, spelling) ∈ v.pairs ↔ IsLast pairs canonical spelling := by
  rw [Vocabulary.pairs, (ofPairs_eq_ok_iff.mp h).2]
  exact SortedMap.mem_ofList_iff

/-- The spellings that count are different exactly when no two canonical names have one. -/
theorem nodup_values_iff : (SortedMap.ofList pairs).values.Nodup ↔ ∀ canonical other spelling,
    IsLast pairs canonical spelling → IsLast pairs other spelling → canonical = other := by
  simp only [← SortedMap.mem_ofList_iff]
  constructor
  · intro h canonical other spelling hmem hother
    exact congrArg Prod.fst (List.inj_on_of_nodup_map h hmem hother rfl)
  · intro h
    refine List.Nodup.map_on ?_ ((SortedMap.nodup_keys _).of_map _)
    rintro ⟨canonical, spelling⟩ hmem ⟨other, _⟩ hother rfl
    rw [h canonical other spelling hmem hother]

/-- A vocabulary is built exactly when no two canonical names have one spelling. -/
theorem exists_ofPairs_iff : (∃ v, ofPairs name pairs = .ok v) ↔ ∀ canonical other spelling,
    IsLast pairs canonical spelling → IsLast pairs other spelling → canonical = other := by
  rw [← nodup_values_iff]
  constructor
  · rintro ⟨v, hv⟩
    rw [← (ofPairs_eq_ok_iff.mp hv).2]
    exact v.distinct
  · intro h
    exact ⟨⟨name, SortedMap.ofList pairs, h⟩, ofPairs_eq_ok_iff.mpr ⟨rfl, rfl⟩⟩

/-- What is repeated first among the spellings is that of the first canonical name that clashes. -/
theorem exists_clashesFirst (h : firstRepeated [] (SortedMap.ofList pairs).values = some spelling) :
    ∃ canonical, ClashesFirst pairs canonical spelling := by
  obtain ⟨xs, ys, hvalues, hmem, hnone⟩ := exists_of_firstRepeated h
  obtain ⟨front, tail, hentries, rfl, htail⟩ := List.map_eq_append_iff.mp hvalues
  obtain ⟨⟨canonical, _⟩, back, rfl, rfl, rfl⟩ := List.map_eq_cons_iff.mp htail
  have hascending := (SortedMap.ofList pairs).ascending
  simp only [hentries, List.pairwise_append, List.pairwise_cons] at hascending
  obtain ⟨_, ⟨hback, _⟩, hfront⟩ := hascending
  obtain ⟨⟨smaller, _⟩, hsmaller, rfl⟩ :=
    List.mem_map.mp (hmem.resolve_left List.not_mem_nil)
  -- In front of the first canonical name that clashes stand all smaller ones.
  have hmemFront : ∀ {other word : String}, IsLast pairs other word → other < canonical →
      (other, word) ∈ front := by
    intro other word hlast hlt
    rw [← SortedMap.mem_ofList_iff, hentries, List.mem_append, List.mem_cons] at hlast
    rcases hlast with hlast | heq | hlast
    · exact hlast
    · exact absurd ((Prod.mk.inj heq).1 ▸ hlt) (String.lt_irrefl _)
    · exact absurd (String.lt_trans hlt (hback _ hlast)) (String.lt_irrefl _)
  refine ⟨canonical, ⟨?_, smaller, ?_, ?_⟩, ?_⟩
  · rw [← SortedMap.mem_ofList_iff, hentries]
    exact List.mem_append_right _ List.mem_cons_self
  · exact precedes_iff.mpr (hfront _ hsmaller _ List.mem_cons_self)
  · rw [← SortedMap.mem_ofList_iff, hentries]
    exact List.mem_append_left _ hsmaller
  · rintro other word ⟨hother, least, hleast, hlast⟩ hprecedes
    rw [precedes_iff] at hleast hprecedes
    have hnodup := ((firstRepeated_eq_none_iff _ _).mp hnone).1
    have heq := List.inj_on_of_nodup_map hnodup (hmemFront hother hprecedes)
      (hmemFront hlast (String.lt_trans hleast hprecedes)) rfl
    exact absurd ((Prod.mk.inj heq).1 ▸ hleast) (String.lt_irrefl _)

/-- One canonical name at most clashes first. -/
theorem ClashesFirst.unique {other word : String} (h : ClashesFirst pairs canonical spelling)
    (hother : ClashesFirst pairs other word) : canonical = other ∧ spelling = word := by
  have hcanonical : canonical = other := by
    have hle := h.2 other word hother.1
    have hge := hother.2 canonical spelling h.1
    rw [precedes_iff] at hle hge
    exact String.le_antisymm (String.not_lt.mp hle) (String.not_lt.mp hge)
  subst hcanonical
  exact ⟨rfl, h.1.1.unique hother.1.1⟩

/-- A vocabulary is not built exactly when a canonical name clashes first, and its spelling is
reported. -/
theorem ofPairs_eq_error_iff {e : Error} : ofPairs name pairs = .error e ↔
    ∃ canonical spelling, ClashesFirst pairs canonical spelling ∧
      e = .duplicateSpelling name spelling := by
  have hforward : ∀ {e : Error}, ofPairs name pairs = .error e → ∃ canonical spelling,
      ClashesFirst pairs canonical spelling ∧ e = .duplicateSpelling name spelling := by
    intro e h
    rw [ofPairs] at h
    split at h
    · cases h
    · rename_i spelling hrepeated
      cases h
      obtain ⟨canonical, hclashes⟩ := exists_clashesFirst hrepeated
      exact ⟨canonical, spelling, hclashes, rfl⟩
  refine ⟨hforward, ?_⟩
  rintro ⟨canonical, spelling, hclashes, rfl⟩
  cases hresult : ofPairs name pairs with
  | ok v =>
      obtain ⟨⟨hlast, smaller, hprecedes, hsmaller⟩, _⟩ := hclashes
      have heq := exists_ofPairs_iff.mp ⟨v, hresult⟩ canonical smaller spelling hlast hsmaller
      exact absurd (precedes_iff.mp (heq ▸ hprecedes)) (String.lt_irrefl _)
  | error e =>
      obtain ⟨other, word, hother, rfl⟩ := hforward hresult
      rw [(hclashes.unique hother).2]

/-- A vocabulary is a two-way mapping of the last pairs, and it is built exactly when these are one.
Otherwise the error names the spelling of the least canonical name, in the order of bytes, whose
spelling a smaller one has already. -/
theorem ofPairs_two_way (name : String) (pairs : List (String × String)) :
    ((∃ v, ofPairs name pairs = .ok v) ↔ ∀ canonical other spelling,
      IsLast pairs canonical spelling → IsLast pairs other spelling → canonical = other) ∧
    (∀ v, ofPairs name pairs = .ok v → v.name = name ∧
      (∀ canonical spelling,
        (v.spelling? canonical = some spelling ↔ IsLast pairs canonical spelling) ∧
        (v.canonical? spelling = some canonical ↔ IsLast pairs canonical spelling) ∧
        ((canonical, spelling) ∈ v.pairs ↔ IsLast pairs canonical spelling)) ∧
      (∀ word, v.isSpelling word = true ↔ ∃ canonical, IsLast pairs canonical word) ∧
      (v.pairs.map Prod.fst).Pairwise Precedes ∧
      v.size = (pairs.map Prod.fst).dedup.length) ∧
    ∀ e, ofPairs name pairs = .error e ↔ ∃ canonical spelling,
      ClashesFirst pairs canonical spelling ∧ e = .duplicateSpelling name spelling := by
  refine ⟨exists_ofPairs_iff, fun v hv => ⟨(ofPairs_eq_ok_iff.mp hv).1, ?_, ?_, ?_, ?_⟩,
    fun e => ofPairs_eq_error_iff⟩
  · intro canonical spelling
    rw [spelling?_eq_some_iff_mem, canonical?_eq_some_iff_mem, mem_pairs_iff hv]
    exact ⟨Iff.rfl, Iff.rfl, Iff.rfl⟩
  · intro word
    simp only [isSpelling_iff, canonical?_eq_some_iff_mem, mem_pairs_iff hv]
  · exact List.pairwise_map.mpr (v.keywords.ascending.imp precedes_iff.mpr)
  · rw [size, (ofPairs_eq_ok_iff.mp hv).2, SortedMap.size_ofList]

/-- A spelling given up by a later pair is free for another canonical name; of two clashes that of
the smaller canonical name is reported, wherever its pairs stand. -/
theorem ofPairs_two_way_overwritten :
    let pairs := [("if", "x"), ("for", "x"), ("if", "y")]
    let clashing := [("while", "x"), ("if", "x"), ("for", "y"), ("do", "y")]
    (∃ v, ofPairs "short" pairs = .ok v ∧
      v.spelling? "if" = some "y" ∧ v.canonical? "x" = some "for" ∧ v.size = 2) ∧
    ofPairs "short" clashing = .error (.duplicateSpelling "short" "y") ∧
    ∃ canonical, ClashesFirst clashing canonical "y" := by
  intro pairs clashing
  let v : Vocabulary := ⟨"short", ⟨[("for", "x"), ("if", "y")], by decide⟩, by decide⟩
  have hv : ofPairs "short" pairs = .ok v := by decide +kernel
  have hclash : ofPairs "short" clashing = .error (.duplicateSpelling "short" "y") := by
    decide +kernel
  obtain ⟨_, hbuilt, _⟩ := ofPairs_two_way "short" pairs
  obtain ⟨_, hlookup, _, _, hsize⟩ := hbuilt v hv
  obtain ⟨_, _, herror⟩ := ofPairs_two_way "short" clashing
  obtain ⟨canonical, spelling, hfirst, heq⟩ := (herror _).mp hclash
  cases heq
  refine ⟨⟨v, hv, (hlookup "if" "y").1.mpr ?_, (hlookup "for" "x").2.1.mpr ?_, hsize⟩, hclash,
    canonical, hfirst⟩
  · exact ⟨pairs.take 2, [], rfl, List.forall_mem_nil _⟩
  · exact ⟨pairs.take 1, pairs.drop 2, rfl, by decide⟩

end Vocabulary

end Respell
