import Respell.Proofs.Dictionary.Registry
import Respell.Proofs.Files.Tree

/-!
# Counterparts of a keyword

The vocabularies of a dictionary spell the same canonical names, each in its own way and some only a
part of them. `Spells` says which word a subset has for a canonical name. In one subset a word
stands for one name and a name has one word, and a word is respelled exactly when both subsets have
a word for its name. So a respelling can be undone, and a way through a third subset leads where the
direct way does; the growths along it add up. `respell_invertible` states these laws together.
-/

namespace Respell.Dictionary

variable {d : Dictionary} {subset source destination other canonical word spelling : String}

/-- The subset is in the dictionary and has this word for the canonical name. -/
def Spells (d : Dictionary) (subset canonical word : String) : Prop :=
  ∃ v, d.get subset = .ok v ∧ (canonical, word) ∈ v.pairs

/-- In one subset a word stands for one canonical name. -/
theorem Spells.canonical_eq {name : String} (h : d.Spells subset canonical word)
    (h' : d.Spells subset name word) : canonical = name := by
  obtain ⟨v, hv, hmem⟩ := h
  obtain ⟨w, hw, hmem'⟩ := h'
  cases hv.symm.trans hw
  exact Vocabulary.eq_of_mem_pairs hmem hmem'

/-- A word is respelled exactly when both subsets have a word for one canonical name. -/
theorem respell_eq_ok_iff_spells : d.respell word source destination = .ok spelling ↔
    ∃ canonical, d.Spells source canonical word ∧ d.Spells destination canonical spelling := by
  constructor
  · intro h
    obtain ⟨v, hv, hrest⟩ := bind_eq_ok_iff.mp h
    obtain ⟨w, hw, _⟩ := bind_eq_ok_iff.mp hrest
    obtain ⟨canonical, hword, hspelling⟩ := (respell_eq_ok_iff hv hw).mp h
    exact ⟨canonical, ⟨v, hv, Vocabulary.canonical?_eq_some_iff_mem.mp hword⟩,
      ⟨w, hw, Vocabulary.spelling?_eq_some_iff_mem.mp hspelling⟩⟩
  · rintro ⟨canonical, ⟨v, hv, hword⟩, ⟨w, hw, hspelling⟩⟩
    exact (respell_eq_ok_iff hv hw).mpr ⟨canonical, Vocabulary.canonical?_eq_some_iff_mem.mpr hword,
      Vocabulary.spelling?_eq_some_iff_mem.mpr hspelling⟩

/-- What is respelled one way is respelled back the other way. -/
theorem respell_comm : d.respell word source destination = .ok spelling ↔
    d.respell spelling destination source = .ok word := by
  rw [respell_eq_ok_iff_spells, respell_eq_ok_iff_spells]
  exact exists_congr fun _ => and_comm

/-- From its counterpart a word is respelled to where it is respelled to itself. -/
theorem respell_through (h : d.respell word source destination = .ok spelling) {last : String} :
    d.respell spelling destination other = .ok last ↔ d.respell word source other = .ok last := by
  obtain ⟨canonical, hword, hspelling⟩ := respell_eq_ok_iff_spells.mp h
  rw [respell_eq_ok_iff_spells, respell_eq_ok_iff_spells]
  refine exists_congr fun name => and_congr_left fun _ => ?_
  constructor
  · intro hname
    rwa [← hspelling.canonical_eq hname]
  · intro hname
    rwa [← hword.canonical_eq hname]

/-- Between two subsets of the dictionary a word is respelled, or it is reported to have no
counterpart. -/
theorem respell_cases (hsource : source ∈ d.names) (hdestination : destination ∈ d.names)
    (word : String) : (∃ spelling, d.respell word source destination = .ok spelling) ∨
      d.respell word source destination = .error (.noCounterpart word source destination) := by
  obtain ⟨v, hv⟩ := mem_names_iff.mp hsource
  obtain ⟨w, hw⟩ := mem_names_iff.mp hdestination
  cases hfound : (v.canonical? word).bind w.spelling? with
  | none => exact Or.inr (respell_eq_error hv hw hfound)
  | some spelling =>
      exact Or.inl ⟨spelling, (respell_eq_ok_iff hv hw).mpr (Option.bind_eq_some_iff.mp hfound)⟩

/-- A word that is respelled belongs to a subset of the dictionary, and so does its counterpart. -/
theorem mem_names_of_respell (h : d.respell word source destination = .ok spelling) :
    source ∈ d.names ∧ destination ∈ d.names := by
  obtain ⟨_, ⟨v, hv, _⟩, ⟨w, hw, _⟩⟩ := respell_eq_ok_iff_spells.mp h
  exact ⟨mem_names_iff.mpr ⟨v, hv⟩, mem_names_iff.mpr ⟨w, hw⟩⟩

/-- The growth is the difference of the lengths of a word and its counterpart. -/
theorem growth_eq_ok_iff {n : Int} : d.growth word source destination = .ok n ↔
    ∃ spelling, d.respell word source destination = .ok spelling ∧
      n = (spelling.utf8ByteSize : Int) - (word.utf8ByteSize : Int) := by
  rw [growth, bind_eq_ok_iff]
  refine exists_congr fun spelling => and_congr_right fun _ => ?_
  constructor
  · intro h
    exact (Except.ok.inj h).symm
  · rintro rfl
    rfl

/-- The laws of a word with a counterpart. The counterpart is respelled back to it. To any third
subset both are respelled alike, or both have no counterpart there. The way back takes away what the
way there added, and the growths of two ways in a row add up. No other word has this counterpart. -/
theorem respell_invertible (h : d.respell word source destination = .ok spelling) :
    d.respell spelling destination source = .ok word ∧
    (∀ other ∈ d.names,
      (∃ last, d.respell spelling destination other = .ok last ∧
        d.respell word source other = .ok last) ∨
      (d.respell spelling destination other = .error (.noCounterpart spelling destination other) ∧
        d.respell word source other = .error (.noCounterpart word source other))) ∧
    (∃ n, d.growth word source destination = .ok n ∧
      d.growth spelling destination source = .ok (-n) ∧
      ∀ other m, d.growth spelling destination other = .ok m ↔
        d.growth word source other = .ok (n + m)) ∧
    ∀ another, d.respell another source destination = .ok spelling → another = word := by
  have hback : d.respell spelling destination source = .ok word := respell_comm.mp h
  obtain ⟨hsource, hdestination⟩ := mem_names_of_respell h
  refine ⟨hback, fun other hother => ?_, ?_, fun another hanother => ?_⟩
  · rcases respell_cases hdestination hother spelling with ⟨last, hlast⟩ | hnone
    · exact Or.inl ⟨last, hlast, (respell_through h).mp hlast⟩
    · refine Or.inr ⟨hnone, (respell_cases hsource hother word).resolve_left ?_⟩
      rintro ⟨last, hlast⟩
      cases hnone.symm.trans ((respell_through h).mpr hlast)
  · refine ⟨_, growth_eq_ok_iff.mpr ⟨spelling, h, rfl⟩,
      growth_eq_ok_iff.mpr ⟨word, hback, by omega⟩, fun other m => ?_⟩
    rw [growth_eq_ok_iff, growth_eq_ok_iff]
    refine exists_congr fun last => and_congr (respell_through h) ?_
    constructor <;> intro hm <;> omega
  · exact Except.ok.inj ((respell_comm.mp hanother).symm.trans hback)

/-- One keyword is respelled by a longer and by a shorter word, and the way over the first to the
second adds up; another keyword has no counterpart in the third subset, whichever way it goes. -/
theorem respell_invertible_partial :
    let d := empty.registerAll [.ofPairs "plain" [("if", "if"), ("for", "for")],
      .ofPairs "long" [("for", "each"), ("if", "whenever")], .ofPairs "greek" [("if", "αν")]]
    (d.respell "if" "plain" "long" = .ok "whenever" ∧
      d.respell "whenever" "long" "plain" = .ok "if" ∧
      ∃ n, d.growth "if" "plain" "long" = .ok n ∧ d.growth "whenever" "long" "plain" = .ok (-n) ∧
        d.growth "if" "plain" "greek" = .ok (n + -4)) ∧
    (d.respell "for" "plain" "long" = .ok "each" ∧
      d.respell "each" "long" "greek" = .error (.noCounterpart "each" "long" "greek") ∧
      d.respell "for" "plain" "greek" = .error (.noCounterpart "for" "plain" "greek")) := by
  intro d
  have hif : d.respell "if" "plain" "long" = .ok "whenever" := by decide +kernel
  have hfor : d.respell "for" "plain" "long" = .ok "each" := by decide +kernel
  obtain ⟨hback, _, ⟨n, hgrowth, hshrink, hadd⟩, _⟩ := respell_invertible hif
  obtain ⟨_, hthird, _⟩ := respell_invertible hfor
  refine ⟨⟨hif, hback, n, hgrowth, hshrink, (hadd "greek" (-4)).mp (by decide +kernel)⟩, hfor, ?_⟩
  rcases hthird "greek" (by decide +kernel) with ⟨last, hlast, _⟩ | hnone
  · have hmissing : d.respell "each" "long" "greek" =
        .error (.noCounterpart "each" "long" "greek") := by decide +kernel
    cases hmissing.symm.trans hlast
  · exact hnone

end Respell.Dictionary
