import Respell.Proofs.Token.Checked.Literal

/-!
# Checked gaps

The checked lexer skips the blanks and comments that `Trivia.skip` skips, and no check fails on the
way. Where a block comment ends is found there by a search for the mark that closes it, and here by
a scan; `find?_closingMark` states that these come to the same place.
-/

namespace Respell.Checked

open Text Text.Matcher

variable {text s : List Char} {start n : Nat} {c : Char}

/-- The mark that closes a comment is found where the scan of the comment ends. -/
theorem find?_closingMark (s : List Char) : (find? Trivia.closingMark s).map (· + 2) =
    (scan Literal.commentMove .plain s).map fun r => byteLength r.1 := by
  induction s with
  | nil => rfl
  | cons c s ih =>
      rw [find?]
      split
      · rename_i hmark
        obtain ⟨rest, hs⟩ := List.isPrefixOf_iff_prefix.mp hmark
        cases hs
        rfl
      · rename_i hmark
        have hscan : scan Literal.commentMove .plain (c :: s) =
            (scan Literal.commentMove .plain s).map (prepend c) := by
          by_cases hstar : c = '*'
          · subst hstar
            rw [scan_go (q := .star) rfl, scan_congr]
            intro d hd
            have hslash : d ≠ '/' := by
              rintro rfl
              obtain ⟨rest, rfl⟩ := List.head?_eq_some_iff.mp hd
              exact hmark rfl
            simp [Literal.commentMove, hslash]
          · exact scan_go (by simp [Literal.commentMove, hstar])
        rw [hscan, Option.map_map, Option.map_map]
        have := congrArg (Option.map (c.utf8Size + ·)) ih
        simpa [Function.comp_def, prepend, Nat.add_assoc] using this

/-- What is skipped from the offset `n` on: the end of the gap, or the offset of an open comment. -/
def skipped (n : Nat) (s : List Char) : Found Nat :=
  match Trivia.skip s with
  | .ok (gap, _) => .ok (n + byteLength gap)
  | .error gap => .error (.unterminatedComment, n + byteLength gap)

/-- The blanks and comments already skipped come before those that are skipped from there on. -/
theorem skipFrom_taken (taken base s : List Char) :
    Trivia.skipFrom (taken ++ base) s = match Trivia.skipFrom taken s with
      | .ok (gap, rest) => .ok (base.reverse ++ gap, rest)
      | .error gap => .error (base.reverse ++ gap) := by
  fun_induction Trivia.skipFrom taken s with
  | case1 taken s t after htrivium ih =>
      rw [Trivia.skipFrom]
      split
      · rename_i u rest hu
        cases htrivium.symm.trans hu
        rw [← ih, List.append_assoc]
      · rename_i hnone
        cases htrivium.symm.trans hnone
  | case2 taken s hnone hblock =>
      rw [Trivia.skipFrom]
      split
      · rename_i hu
        cases hnone.symm.trans hu
      · rw [if_pos hblock, List.reverse_append]
  | case3 taken s hnone hblock =>
      rw [Trivia.skipFrom]
      split
      · rename_i hu
        cases hnone.symm.trans hu
      · rw [if_neg hblock, List.reverse_append]

/-- One blank or comment moves the offset from which on more are skipped. -/
theorem skipped_of_trivium {t rest : List Char} (h : Trivia.trivium s = some (t, rest)) :
    skipped n s = skipped (n + byteLength t) rest := by
  have hskip : Trivia.skip s = Trivia.skipFrom ([] ++ t.reverse) rest := by
    rw [Trivia.skip, Trivia.skipFrom]
    split
    · rename_i hu
      cases h.symm.trans hu
      rw [List.append_nil, List.nil_append]
    · rename_i hnone
      cases h.symm.trans hnone
  rw [skipped, skipped, hskip, skipFrom_taken, ← Trivia.skip]
  cases Trivia.skip rest with
  | ok result => simp [Nat.add_assoc]
  | error gap => simp [Nat.add_assoc]

/-- Where no blank and no comment is read, the gap ends or a comment is open. -/
theorem skipped_of_none (h : Trivia.trivium s = none) : skipped n s =
    if Trivia.beginsBlockComment s then .error (.unterminatedComment, n) else .ok n := by
  have hskip : Trivia.skip s =
      if Trivia.beginsBlockComment s then .error [] else .ok ([], s) := by
    rw [Trivia.skip, Trivia.skipFrom]
    split
    · rename_i hu
      cases h.symm.trans hu
    · rfl
  rw [skipped, hskip]
  cases Trivia.beginsBlockComment s <;> rfl

/-- One turn over blanks and comments leads to what is skipped. -/
theorem leads_triviaTurn (h : behind? n text = some s) :
    Leads text (fun _ => True) (fun _ => skipped) n (skipped n s) (triviaTurn text () n) := by
  have hagain : ∀ {t rest}, Trivia.trivium s = some (t, rest) →
      Leads text (fun _ => True) (fun _ => skipped) n (skipped n s)
        (some (.again () (n + byteLength t))) := by
    intro t rest ht
    have hs := h
    rw [← Trivia.splits_trivium _ _ _ ht] at hs
    have hpos := byteLength_pos (Trivia.advances_trivium _ _ _ ht)
    exact .again (Nat.lt_add_of_pos_right hpos) (behind?_add hs) trivial
      (skipped_of_trivium ht).symm
  simp only [triviaTurn, h, Option.bind_eq_bind, Option.bind_some]
  split
  · rename_i hline
    rw [eatWhile_eq _ h, Option.bind_some]
    exact hagain (by rw [Trivia.trivium, if_pos hline]; rfl)
  · rename_i hline
    split
    · rename_i hblock
      obtain ⟨body, rfl⟩ : ∃ body, s = '/' :: '*' :: body :=
        (List.isPrefixOf_iff_prefix.mp hblock).imp fun _ hs => hs.symm
      have hbody : behind? 2 ('/' :: '*' :: body) = some body :=
        behind?_add (t := ['/', '*']) (behind?_zero _)
      have htrivium : Trivia.trivium ('/' :: '*' :: body) =
          (scan Literal.commentMove .plain body).map (prepend '/' ∘ prepend '*') := by
        rw [Trivia.trivium, if_neg hline, if_pos hblock, Literal.blockComment, exactly_sequence,
          exactly_sequence, Option.map_map]
      have hfind := find?_closingMark body
      simp only [hbody, Option.bind_some]
      cases hscan : scan Literal.commentMove .plain body with
      | none =>
          rw [hscan, Option.map_none] at htrivium
          rw [hscan, Option.map_none, Option.map_eq_none_iff] at hfind
          rw [hfind, skipped_of_none htrivium, if_pos hblock]
          exact .done
      | some result =>
          obtain ⟨t, rest⟩ := result
          rw [hscan, Option.map_some] at htrivium hfind
          obtain ⟨m, hm, hlength⟩ := Option.map_eq_some_iff.mp hfind
          rw [hm]
          have hmove : n + m + 4 = n + byteLength ('/' :: '*' :: t) := by
            rw [byteLength_cons, byteLength_cons, ← hlength]
            show n + m + 4 = n + (1 + (1 + (m + 2)))
            omega
          dsimp only
          rw [hmove]
          exact hagain htrivium
    · rename_i hblock
      have htrivium : Trivia.trivium s = one Trivia.isBlank s := by
        rw [Trivia.trivium, if_neg hline, if_neg hblock]
      cases s with
      | nil =>
          simp only [peek?_eq h, Option.bind_some]
          rw [skipped_of_none htrivium, if_neg hblock]
          exact .done
      | cons c s =>
          simp only [peek?_eq h, bump?_cons h, Option.bind_some, List.head?_cons, Option.any_some]
          rw [one] at htrivium
          split
          · rename_i hblank
            rw [if_pos hblank] at htrivium
            have := hagain htrivium
            rwa [byteLength_cons, byteLength_nil, Nat.add_zero] at this
          · rename_i hblank
            rw [if_neg hblank] at htrivium
            rw [skipped_of_none htrivium, if_neg hblock]
            exact .done

/-- The blanks and comments are skipped that there are. -/
theorem skipTrivia_eq (h : behind? n text = some s) : skipTrivia text n = some (skipped n s) :=
  loop_eq (fun _ => True) _ (fun _ _ _ _ hs => leads_triviaTurn hs) () trivial h

end Respell.Checked
