import Respell.Proofs.Text.Matcher
import Respell.Token.Literal

/-!
# How literals begin and end

A string ends with the quote that opens it. A piece of a template begins with its opening mark and
ends with the mark of a template or with the opening of a substitution; which of the two, is seen
from its last characters.
-/

namespace Respell.Literal

open Text Text.Matcher

variable {s t rest : List Char} {c : Char}

/-- A string ends with its quote. -/
theorem getLast?_of_string {quote : Char} (h : string quote s = some (t, rest)) :
    t.getLast? = some quote := by
  obtain ⟨u, body, mid, rfl, _, hscan⟩ := sequence_eq_some_iff.mp h
  obtain ⟨q, d, hlast, hfinish⟩ := scanFrom_last hscan
  have hd : d = quote := by
    cases q with
    | escape => cases hfinish
    | plain | carriage =>
        rw [stringMove] at hfinish
        split at hfinish
        · cases hfinish
        · split at hfinish
          · assumption
          · split at hfinish
            · cases hfinish
            · split at hfinish <;> cases hfinish
        · intro hstate
          cases hstate
  rw [List.getLast?_append, hlast, hd]
  rfl

/-- The opening of a substitution. -/
def substitutionMark : List Char := ['$', '{']

/-- A piece of a template is finished by the brace behind a dollar sign or by the mark of a
template. -/
theorem templateMove_eq_finish {q : TemplateState} (h : templateMove q c = .finish) :
    c = '{' ∧ q = .dollar ∨ c = templateQuote := by
  cases q with
  | escape => cases h
  | plain | dollar =>
      rw [templateMove] at h
      · split at h
        · exact Or.inl (by assumption)
        · split at h
          · exact Or.inr (by assumption)
          · split at h
            · cases h
            · split at h <;> cases h
      · intro hstate
        cases hstate

/-- Only behind a dollar sign is the state the one behind a dollar sign. -/
theorem templateMove_eq_dollar {q : TemplateState} (h : templateMove q c = .go .dollar) :
    c = '$' := by
  cases q with
  | escape => cases h
  | plain | dollar =>
      rw [templateMove] at h
      · split at h
        · cases h
        · split at h
          · cases h
          · split at h
            · cases h
            · split at h
              · assumption
              · cases h
      · intro hstate
        cases hstate

/-- A scan of a piece of a template finishes with one of the two marks. -/
theorem ends_of_scanFrom_template {q : TemplateState} {taken : List Char}
    (htaken : q = .dollar → taken.head? = some '$')
    (h : scanFrom templateMove q taken s = some (t, rest)) :
    t.getLast? = some templateQuote ∨ substitutionMark <:+ t := by
  induction s generalizing q taken with
  | nil => cases h
  | cons c s ih =>
      rw [scanFrom] at h
      split at h
      · rename_i next hgo
        refine ih (fun hnext => ?_) h
        subst hnext
        rw [List.head?_cons, templateMove_eq_dollar hgo]
      · rename_i hfinish
        cases h
        rcases templateMove_eq_finish hfinish with ⟨rfl, hdollar⟩ | rfl
        · obtain ⟨more, rfl⟩ := List.head?_eq_some_iff.mp (htaken hdollar)
          exact Or.inr ⟨more.reverse, by simp [substitutionMark]⟩
        · exact Or.inl (by simp)
      · cases h

/-- A piece of a template begins with its opening mark and ends with the mark of a template or with
the opening of a substitution. -/
theorem ends_of_template {opening : Char} (h : template opening s = some (t, rest)) :
    t.head? = some opening ∧ (t.getLast? = some templateQuote ∨ substitutionMark <:+ t) := by
  obtain ⟨u, body, mid, rfl, hopening, hscan⟩ := sequence_eq_some_iff.mp h
  obtain ⟨rfl, _⟩ := exactly_eq_some_iff.mp hopening
  refine ⟨rfl, ?_⟩
  have hend := ends_of_scanFrom_template (fun hq => by cases hq) hscan
  rcases hend with hlast | hmark
  · left
    rw [List.getLast?_append, hlast]
    rfl
  · exact Or.inr (hmark.trans (List.suffix_append _ _))

end Respell.Literal
