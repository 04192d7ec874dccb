import Mathlib.Data.List.Forall2
import Mathlib.Tactic.ByContra
import Respell.Proofs.Vocabulary.Pairs
import Respell.Vocabulary.Document

/-!
# Vocabularies that are read from documents

An entry of a document counts when it is the last one of its key and no remark. The entries that
count are divided into those that are kept, which are the pairs of the vocabulary, and those that
cannot be spellings, about each of which there is one warning. `ofDocument_entries` states this
division, with the two errors that a document may end in, and `spellsNames_of_ofDocument` what it
promises of the spellings.
-/

namespace Respell.Vocabulary

open Json (Value)
open SortedMap (IsLast)
open Text (Precedes precedes_iff)

/-- The entry is the last one of its key and no remark. -/
def Counts (members : List (String × Value)) (key : String) (value : Value) : Prop :=
  IsLast members key value ∧ key.toList.head? ≠ some '@'

/-- An entry of this key counts, and its value is this spelling and a name. -/
def Keeps (members : List (String × Value)) (key spelling : String) : Prop :=
  Counts members key (.string spelling) ∧ Identifier.isName spelling.toList = true

/-- The value of an entry cannot be a spelling, and the warning says why. -/
inductive Unusable (subset key : String) : Value → Warning → Prop where
  | notName {spelling : String} :
      Identifier.isName spelling.toList = false →
      Unusable subset key (.string spelling) (.notName subset key spelling)
  | notString {value : Value} :
      (∀ spelling, value ≠ .string spelling) →
      Unusable subset key value (.notString subset key)

variable {subset path document key spelling : String} {value : Value}
  {members : List (String × Value)} {warning : Warning} {v : Vocabulary}

/-- An unusable value is not a string that is a name. -/
theorem Unusable.not_name (h : Unusable subset key value warning) :
    ¬ ∃ spelling, value = .string spelling ∧ Identifier.isName spelling.toList = true := by
  rintro ⟨spelling, rfl, hname⟩
  cases h with
  | notName hnot =>
      rw [hname] at hnot
      cases hnot
  | notString hnot => exact hnot spelling rfl

/-- An entry is a remark, or it is kept with the string that is its value, or it is dropped with a
warning about its value. -/
theorem Entry.ofMember_cases (subset key : String) (value : Value) :
    (key.toList.head? = some '@' ∧ Entry.ofMember subset key value = .remark) ∨
    (key.toList.head? ≠ some '@' ∧
      ((∃ spelling, value = .string spelling ∧ Identifier.isName spelling.toList = true ∧
        Entry.ofMember subset key value = .kept key spelling) ∨
      ∃ warning, Unusable subset key value warning ∧
        Entry.ofMember subset key value = .dropped warning)) := by
  rw [Entry.ofMember.eq_def]
  by_cases hremark : key.toList.head? = some '@'
  · exact Or.inl ⟨hremark, if_pos hremark⟩
  · refine Or.inr ⟨hremark, ?_⟩
    rw [if_neg hremark]
    split
    · rename_i spelling
      cases hname : Identifier.isName spelling.toList with
      | true => exact Or.inl ⟨spelling, rfl, hname, if_pos rfl⟩
      | false => exact Or.inr ⟨_, .notName hname, if_neg Bool.false_ne_true⟩
    · rename_i hstring
      exact Or.inr ⟨_, .notString hstring, rfl⟩

/-- An entry becomes a pair exactly when it is no remark and its value is a string and a name. -/
theorem Entry.pair?_ofMember_iff {e : String × String} :
    (Entry.ofMember subset key value).pair? = some e ↔ key.toList.head? ≠ some '@' ∧
      ∃ spelling, value = .string spelling ∧ Identifier.isName spelling.toList = true ∧
        e = (key, spelling) := by
  rcases Entry.ofMember_cases subset key value with
    ⟨hremark, hentry⟩ | ⟨hkey, ⟨word, rfl, hname, hentry⟩ | ⟨warning, hunusable, hentry⟩⟩
  · rw [hentry]
    exact iff_of_false (fun h => by cases h) fun h => h.1 hremark
  · rw [hentry]
    constructor
    · intro h
      cases h
      exact ⟨hkey, word, rfl, hname, rfl⟩
    · rintro ⟨_, spelling, hvalue, _, rfl⟩
      cases hvalue
      rfl
  · rw [hentry]
    exact iff_of_false (fun h => by cases h) fun h =>
      hunusable.not_name (h.2.imp fun _ h => ⟨h.1, h.2.1⟩)

/-- There is a warning about an entry exactly when it is no remark and its value is not a string and
a name. -/
theorem Entry.exists_warning?_ofMember_iff :
    (∃ warning, (Entry.ofMember subset key value).warning? = some warning) ↔
      key.toList.head? ≠ some '@' ∧
        ¬ ∃ spelling, value = .string spelling ∧ Identifier.isName spelling.toList = true := by
  rcases Entry.ofMember_cases subset key value with
    ⟨hremark, hentry⟩ | ⟨hkey, ⟨word, rfl, hname, hentry⟩ | ⟨warning, hunusable, hentry⟩⟩
  · rw [hentry]
    exact iff_of_false (fun ⟨_, h⟩ => by cases h) fun h => h.1 hremark
  · rw [hentry]
    exact iff_of_false (fun ⟨_, h⟩ => by cases h) fun h => h.2 ⟨word, rfl, hname⟩
  · rw [hentry]
    exact iff_of_true ⟨warning, rfl⟩ ⟨hkey, hunusable.not_name⟩

/-- The warning about an entry says why its value is unusable. -/
theorem Entry.unusable_of_warning? (h : (Entry.ofMember subset key value).warning? = some warning) :
    Unusable subset key value warning := by
  rcases Entry.ofMember_cases subset key value with
    ⟨_, hentry⟩ | ⟨_, ⟨_, _, _, hentry⟩ | ⟨_, hunusable, hentry⟩⟩
  · rw [hentry] at h
    cases h
  · rw [hentry] at h
    cases h
  · rw [hentry] at h
    cases h
    exact hunusable

/-- What a list becomes, element by element, where something becomes of an element. -/
theorem forall₂_filterMap {α β : Type} (f : α → Option β) (l : List α) :
    List.Forall₂ (fun a b => f a = some b) (l.filter fun a => (f a).isSome) (l.filterMap f) := by
  induction l with
  | nil => exact .nil
  | cons a l ih =>
      cases hf : f a with
      | none => simpa [hf] using ih
      | some b => simpa [hf] using ih

/-- The pairs that the members of an object become. -/
def keptPairs (subset : String) (members : List (String × Value)) : List (String × String) :=
  ((SortedMap.ofList members).entries.map fun m => Entry.ofMember subset m.1 m.2).filterMap
    Entry.pair?

/-- A pair counts among the kept ones exactly when an entry is kept with it. -/
theorem isLast_keptPairs_iff : IsLast (keptPairs subset members) key spelling ↔
    Keeps members key spelling := by
  have hmem : ∀ e, e ∈ keptPairs subset members ↔ Keeps members e.1 e.2 := by
    rintro ⟨key, spelling⟩
    simp only [keptPairs, List.mem_filterMap, List.mem_map, exists_exists_and_eq_and,
      Entry.pair?_ofMember_iff]
    constructor
    · rintro ⟨⟨key', value⟩, hmember, hkey, _, rfl, hname, hpair⟩
      cases hpair
      exact ⟨⟨SortedMap.mem_ofList_iff.mp hmember, hkey⟩, hname⟩
    · rintro ⟨⟨hlast, hkey⟩, hname⟩
      exact ⟨_, SortedMap.mem_ofList_iff.mpr hlast, hkey, spelling, rfl, hname, rfl⟩
  have hascending : (keptPairs subset members).Pairwise (fun a b => a.1 < b.1) := by
    rw [keptPairs, List.pairwise_filterMap, List.pairwise_map]
    refine (SortedMap.ofList members).ascending.imp fun hlt a ha b hb => ?_
    obtain ⟨_, _, _, _, rfl⟩ := Entry.pair?_ofMember_iff.mp ha
    obtain ⟨_, _, _, _, rfl⟩ := Entry.pair?_ofMember_iff.mp hb
    exact hlt
  rw [SortedMap.isLast_iff_mem hascending, hmem]

/-- The members of an object become the vocabulary of the kept pairs. -/
theorem result_ofMembers :
    (ofMembers subset members).result = ofPairs subset (keptPairs subset members) :=
  rfl

/-- An error reports a spelling with which two entries are kept. -/
theorem duplicate_of_ofMembers {e : Error} (h : (ofMembers subset members).result = .error e) :
    ∃ key other spelling, key ≠ other ∧ Keeps members key spelling ∧
      Keeps members other spelling ∧ e = .duplicateSpelling subset spelling := by
  rw [result_ofMembers] at h
  obtain ⟨key, spelling, ⟨⟨hkey, other, hprecedes, hother⟩, _⟩, rfl⟩ := ofPairs_eq_error_iff.mp h
  rw [isLast_keptPairs_iff] at hkey hother
  refine ⟨key, other, spelling, ?_, hkey, hother, rfl⟩
  rintro rfl
  exact String.lt_irrefl _ (precedes_iff.mp hprecedes)

/-- There is an error exactly when two entries are kept with one spelling. -/
theorem exists_error_ofMembers_iff : (∃ e, (ofMembers subset members).result = .error e) ↔
    ∃ key other spelling, key ≠ other ∧ Keeps members key spelling ∧
      Keeps members other spelling := by
  constructor
  · rintro ⟨e, h⟩
    obtain ⟨key, other, spelling, hne, hkey, hother, _⟩ := duplicate_of_ofMembers h
    exact ⟨key, other, spelling, hne, hkey, hother⟩
  · rintro ⟨key, other, spelling, hne, hkey, hother⟩
    rw [result_ofMembers]
    cases hresult : ofPairs subset (keptPairs subset members) with
    | error e => exact ⟨e, rfl⟩
    | ok v =>
        have hinjective := exists_ofPairs_iff.mp ⟨v, hresult⟩ key other spelling
        rw [isLast_keptPairs_iff, isLast_keptPairs_iff] at hinjective
        exact absurd (hinjective hkey hother) hne

/-- The list holds the entries that count and are not kept, in the order of their keys. -/
structure IsDropped (members dropped : List (String × Value)) : Prop where
  ascending : (dropped.map Prod.fst).Pairwise Precedes
  mem_iff : ∀ key value, (key, value) ∈ dropped ↔
    Counts members key value ∧ ¬ ∃ spelling, Keeps members key spelling

/-- There is one warning about each entry that is dropped, and no other. -/
theorem exists_isDropped (subset : String) (members : List (String × Value)) :
    ∃ dropped, IsDropped members dropped ∧
      List.Forall₂ (fun e warning => Unusable subset e.1 e.2 warning) dropped
        (ofMembers subset members).warnings := by
  have hwarnings : (ofMembers subset members).warnings =
      (SortedMap.ofList members).entries.filterMap fun m =>
        (Entry.ofMember subset m.1 m.2).warning? :=
    List.filterMap_map
  refine ⟨(SortedMap.ofList members).entries.filter fun m =>
    (Entry.ofMember subset m.1 m.2).warning?.isSome, ⟨?_, ?_⟩, ?_⟩
  · exact List.pairwise_map.mpr
      (((SortedMap.ofList members).ascending.filter _).imp precedes_iff.mpr)
  · intro key value
    rw [List.mem_filter, SortedMap.mem_ofList_iff, Option.isSome_iff_exists,
      Entry.exists_warning?_ofMember_iff, Counts, and_assoc]
    refine and_congr_right fun hlast => and_congr_right fun hkey => not_congr ?_
    constructor
    · rintro ⟨spelling, rfl, hname⟩
      exact ⟨spelling, ⟨hlast, hkey⟩, hname⟩
    · rintro ⟨spelling, ⟨⟨hstring, _⟩, hname⟩⟩
      exact ⟨spelling, hlast.unique hstring, hname⟩
  · have hforall := forall₂_filterMap
      (fun m : String × Value => (Entry.ofMember subset m.1 m.2).warning?)
      (SortedMap.ofList members).entries
    rw [hwarnings]
    exact hforall.imp fun _ _ => Entry.unusable_of_warning?

/-- The pairs of the vocabulary are the entries that are kept. -/
theorem mem_pairs_ofMembers (h : (ofMembers subset members).result = .ok v) :
    (key, spelling) ∈ v.pairs ↔ Keeps members key spelling :=
  (mem_pairs_iff h).trans isLast_keptPairs_iff

/-- The spellings of a vocabulary that is read from a document are names. -/
theorem spellsNames_of_ofDocument (h : (ofDocument subset path document).result = .ok v) :
    v.SpellsNames := by
  rw [ofDocument] at h
  split at h
  · rename_i value _
    cases value with
    | object members => exact fun e he => ((mem_pairs_ofMembers h).mp he).2
    | _ => cases h
  · cases h

/-- A vocabulary that is read from a document has the name that was asked for. -/
theorem name_of_ofDocument (h : (ofDocument subset path document).result = .ok v) :
    v.name = subset := by
  rw [ofDocument] at h
  split at h
  · rename_i value _
    cases value with
    | object members => exact (ofPairs_eq_ok_iff.mp h).1
    | _ => cases h
  · cases h

/-- Every warning about a document is about one of its entries. -/
theorem exists_unusable_of_ofDocument (h : warning ∈ (ofDocument subset path document).warnings) :
    ∃ key value, Unusable subset key value warning := by
  rw [ofDocument] at h
  split at h
  · rename_i value _
    cases value with
    | object members =>
        obtain ⟨entry, hentry, hwarning⟩ := List.mem_filterMap.mp h
        obtain ⟨m, _, rfl⟩ := List.mem_map.mp hentry
        exact ⟨m.1, m.2, Entry.unusable_of_warning? hwarning⟩
    | _ => cases h
  · cases h

/-- Only an object is a vocabulary. -/
theorem ofValue_of_ne_object (h : ∀ members, value ≠ .object members) :
    ofValue subset path value = ⟨[], .error (.invalidVocabulary path .rootNotObject)⟩ := by
  cases value with
  | object members => exact absurd rfl (h members)
  | _ => rfl

/-- A document is refused for its form exactly when it is not an object. Of an object the entries
that count are divided: those that are kept are the pairs of the vocabulary, unless two of them have
one spelling, which is then the error, and there is one warning about each of the others. -/
theorem ofDocument_entries (subset path : String) {document : String} {value : Value}
    (h : Value.ofString document = some value) :
    let report := ofDocument subset path document
    ((∃ place problem, report.result = .error (.invalidVocabulary place problem)) ↔
      ∀ members, value ≠ .object members) ∧
    ((∀ members, value ≠ .object members) →
      report = ⟨[], .error (.invalidVocabulary path .rootNotObject)⟩) ∧
    ∀ members, value = .object members →
      ((∃ e, report.result = .error e) ↔ ∃ key other spelling, key ≠ other ∧
        Keeps members key spelling ∧ Keeps members other spelling) ∧
      (∀ e, report.result = .error e → ∃ key other spelling, key ≠ other ∧
        Keeps members key spelling ∧ Keeps members other spelling ∧
        e = .duplicateSpelling subset spelling) ∧
      (∀ v, report.result = .ok v → v.name = subset ∧
        ∀ key spelling, (key, spelling) ∈ v.pairs ↔ Keeps members key spelling) ∧
      ∃ dropped, IsDropped members dropped ∧
        List.Forall₂ (fun e warning => Unusable subset e.1 e.2 warning) dropped
          report.warnings := by
  intro report
  have hreport : report = ofValue subset path value := by
    simp only [report, ofDocument, h]
  rw [hreport]
  refine ⟨⟨?_, fun hroot => ⟨path, _, by rw [ofValue_of_ne_object hroot]⟩⟩,
    ofValue_of_ne_object, ?_⟩
  · rintro ⟨place, problem, hinvalid⟩ members rfl
    obtain ⟨_, _, _, _, _, _, heq⟩ := duplicate_of_ofMembers hinvalid
    cases heq
  · rintro members rfl
    exact ⟨exists_error_ofMembers_iff, fun _ => duplicate_of_ofMembers,
      fun v hv => ⟨(ofPairs_eq_ok_iff.mp hv).1, fun _ _ => mem_pairs_ofMembers hv⟩,
      exists_isDropped subset members⟩

/-- Of two values for one key the later counts, spellings that are no names leave their warnings in
the order of the keys, and a spelling that was passed over is free for another key. -/
theorem ofDocument_entries_divided :
    let document := "\x7b\"@about\":\x7b\"a\":1\x7d,\"if\":\"x\",\"for\":7,\"if\":\"ανν\"," ++
      "\"do\":\"a b\",\"in\":\"x\",\"of\":\"a b\"\x7d"
    ∃ members, Value.ofString document = some (.object members) ∧
      Keeps members "if" "ανν" ∧ Keeps members "in" "x" ∧
      (∀ spelling, ¬ Keeps members "do" spelling) ∧
      (ofDocument "short" "short.json" document).warnings =
        [.notName "short" "do" "a b", .notString "short" "for", .notName "short" "of" "a b"] := by
  intro document
  obtain ⟨value, hvalue⟩ : ∃ value, Value.ofString document = some value :=
    Option.isSome_iff_exists.mp (by decide +kernel)
  let v : Vocabulary := ⟨"short", ⟨[("if", "ανν"), ("in", "x")], by decide⟩, by decide⟩
  have hresult : (ofDocument "short" "short.json" document).result = .ok v := by decide +kernel
  obtain ⟨hroot, _, hmembers⟩ := ofDocument_entries "short" "short.json" hvalue
  have hobject : ∃ members, value = .object members := by
    by_contra hnot
    obtain ⟨place, problem, herror⟩ := hroot.mpr fun members heq => hnot ⟨members, heq⟩
    rw [hresult] at herror
    cases herror
  obtain ⟨members, rfl⟩ := hobject
  obtain ⟨_, _, hpairs, _⟩ := hmembers members rfl
  have hkeeps := (hpairs v hresult).2
  refine ⟨members, hvalue, (hkeeps _ _).mp ?_, (hkeeps _ _).mp ?_, fun spelling hdo => ?_, ?_⟩
  · decide
  · decide
  · have hmem := (hkeeps "do" spelling).mpr hdo
    simp [v, pairs] at hmem
  · decide +kernel

end Respell.Vocabulary
