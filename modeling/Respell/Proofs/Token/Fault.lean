import Respell.Proofs.Token.Form
import Respell.Proofs.Token.Run

/-!
# Where a scanner gives up

A gap and a word are read by loops that give up in the middle, at a comment that is never closed or
at an escape that is not complete. The lemmas here say what the loop has come to then, and
`exists_next_of_run` does so for the loop over all tokens: it comes to a state of which the next
step fails.
-/

namespace Respell

open Text

/-- Only a block comment that is never closed, behind other blanks and comments, is no gap. -/
theorem Trivia.fault_of_skipFrom {taken s gap : List Char} (h : skipFrom taken s = .error gap) :
    ∃ before after, gap = taken.reverse ++ before ∧ s = before ++ after ∧
      beginsBlockComment after = true ∧ trivium after = none := by
  fun_induction skipFrom taken s with
  | case1 taken s t rest htrivium ih =>
      obtain ⟨before, after, hgap, hrest, hopen⟩ := ih h
      refine ⟨t ++ before, after, ?_, ?_, hopen⟩
      · rw [hgap, List.reverse_append, List.reverse_reverse, List.append_assoc]
      · rw [← splits_trivium _ _ _ htrivium, hrest, List.append_assoc]
  | case2 taken s hnone hopen =>
      cases h
      exact ⟨[], s, (List.append_nil _).symm, rfl, hopen, hnone⟩
  | case3 => cases h

/-- Only an escape that is not complete, behind a part of the word, makes a word no word. -/
theorem Word.fault_of_scanFrom {taken : List Char} {escaped : Bool} {s before : List Char}
    (h : scanFrom taken escaped s = .error before) :
    ∃ front after, before = taken.reverse ++ front ∧ s = front ++ '\\' :: 'u' :: after ∧
      escape ('\\' :: 'u' :: after) = none := by
  fun_induction scanFrom taken escaped s with
  | case1 => cases h
  | case2 taken escaped c rest hpart ih =>
      obtain ⟨front, after, hbefore, hrest, hescape⟩ := ih h
      exact ⟨c :: front, after, by simp [hbefore], congrArg (c :: ·) hrest, hescape⟩
  | case3 taken escaped c rest hpart hmark hescape =>
      cases h
      obtain ⟨rfl, hu⟩ := hmark
      obtain ⟨after, rfl⟩ := List.head?_eq_some_iff.mp hu
      exact ⟨[], after, (List.append_nil _).symm, rfl, hescape⟩
  | case4 taken escaped c rest hpart hmark t mid htaken ih =>
      obtain ⟨front, after, hbefore, hmid, hescape⟩ := ih h
      refine ⟨t ++ front, after, ?_, ?_, hescape⟩
      · rw [hbefore, List.reverse_append, List.reverse_reverse, List.append_assoc]
      · rw [← splits_escape _ _ _ htaken, hmid, List.append_assoc]
  | case5 => cases h

namespace LexerState

variable {v : Vocabulary} {s : LexerState}

/-- A run that is at fault comes to a state whose next step is. -/
theorem Reaches.exists_next_of_run {text : List Char} {e : LexicalFault × Nat}
    (hreaches : Reaches v text s) (h : s.run v = .error e) :
    ∃ t, Reaches v text t ∧ t.next v = .error e := by
  fun_induction run v s with
  | case1 s e' hnext =>
      cases h
      exact ⟨s, hreaches, hnext⟩
  | case2 => cases h
  | case3 s t hnext ih => exact ih (hreaches.next hnext) h

end LexerState

end Respell
