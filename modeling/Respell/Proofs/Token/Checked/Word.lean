import Respell.Proofs.Token.Checked.Literal
import Respell.Proofs.Token.Word
import Respell.Proofs.Text.Greedy

/-!
# Checked words

The checked scanner of words finds what `Word.scan` takes, and no check fails on the way. Its only
cuts are those of an escape. They are made behind the two characters of its mark, before a closing
brace, and after four bytes where these are four characters; `escapeLength_eq` states that the
length that comes out is that of the escape.
-/

namespace Respell

open Text Text.Matcher

namespace Text

variable {s : List Char} {c : Char}

/-- The first occurrence of a character is behind all others. -/
theorem find?_append {a rest : List Char} (h : c ∉ a) :
    find? [c] (a ++ c :: rest) = some (byteLength a) := by
  induction a with
  | nil => simp [find?, List.isPrefixOf]
  | cons d a ih =>
      rw [List.mem_cons, not_or] at h
      rw [List.cons_append, find?, ih h.2, if_neg (by simp [List.isPrefixOf, h.1])]
      simp

/-- What is found of a character is an occurrence of it. -/
theorem eq_append_of_find? {m : Nat} (h : find? [c] s = some m) :
    ∃ a rest, s = a ++ c :: rest ∧ m = byteLength a := by
  induction s generalizing m with
  | nil => cases h
  | cons d s ih =>
      rw [find?] at h
      split at h
      · rename_i hd
        obtain ⟨rest, hs⟩ := List.isPrefixOf_iff_prefix.mp hd
        cases hs
        cases h
        exact ⟨[], _, rfl, rfl⟩
      · obtain ⟨k, hk, rfl⟩ := Option.map_eq_some_iff.mp h
        obtain ⟨a, rest, rfl, rfl⟩ := ih hk
        exact ⟨d :: a, rest, rfl, (byteLength_cons _ _).symm⟩

end Text

namespace Numeral

/-- A hexadecimal digit takes one byte. -/
theorem utf8Size_of_isHexDigit {c : Char} (h : isHexDigit c = true) : c.utf8Size = 1 := by
  have hval : c.val ≤ 0x7f := by
    simp only [isHexDigit, Char.isDigit, Bool.or_eq_true, Bool.and_eq_true, decide_eq_true_eq,
      ge_iff_le] at h
    rcases h with (⟨_, h⟩ | ⟨_, h⟩) | ⟨_, h⟩
    · exact UInt32.le_trans h (by decide)
    · exact UInt32.le_trans h (by decide)
    · exact UInt32.le_trans h (by decide)
  exact if_pos hval

/-- Hexadecimal digits take one byte each. -/
theorem byteLength_of_isHexDigit {t : List Char} (h : ∀ c ∈ t, isHexDigit c = true) :
    byteLength t = t.length := by
  induction t with
  | nil => rfl
  | cons c t ih =>
      rw [List.forall_mem_cons] at h
      rw [byteLength_cons, utf8Size_of_isHexDigit h.1, ih h.2, List.length_cons, Nat.add_comm]

end Numeral

namespace Checked

variable {text s : List Char} {n : Nat}

/-- The length is found of an escape with its digits in braces. -/
theorem escapeLength_brace (s : List Char) : escapeLength ('\\' :: 'u' :: '{' :: s) =
    some ((Word.escape ('\\' :: 'u' :: '{' :: s)).map fun r => byteLength r.1) := by
  have hbehind : behind? 2 ('\\' :: 'u' :: '{' :: s) = some ('{' :: s) :=
    behind?_add (t := ['\\', 'u']) (behind?_zero _)
  rw [Word.escape_mark, Word.escapeDigits_brace, Option.map_map, Option.map_map]
  simp only [escapeLength, hbehind, Option.bind_eq_bind, Option.bind_some]
  by_cases hdigits : ∃ a rest, a ≠ [] ∧ (∀ c ∈ a, Numeral.isHexDigit c = true) ∧ s = a ++ '}' :: rest
  · obtain ⟨a, rest, hne, hall, rfl⟩ := hdigits
    have hnot : '}' ∉ a := fun hmem => nomatch hall _ hmem
    have hfront : front? (byteLength a) (a ++ '}' :: rest) = some a :=
      front?_eq_some_iff.mpr ⟨_, rfl, rfl⟩
    have hpos : 0 < byteLength a := by
      rw [Numeral.byteLength_of_isHexDigit hall]
      exact List.length_pos_iff.mpr hne
    rw [find?_append hnot, Word.braced_eq_some_iff.mpr ⟨a, hne, hall, rfl, rfl⟩]
    simp only [if_pos hpos, hfront, Option.bind_some, if_pos (List.all_eq_true.mpr hall)]
    simp only [Option.map_some, Function.comp, prepend, byteLength_cons, byteLength_append,
      byteLength_nil]
    refine congrArg (some ∘ some) ?_
    show byteLength a + 4 = 1 + (1 + (1 + (byteLength a + (1 + 0))))
    omega
  · have hnone : sequence (run Numeral.isHexDigit Numeral.isHexDigit) (exactly '}') s = none := by
      by_contra hsome
      obtain ⟨result, hresult⟩ := Option.ne_none_iff_exists'.mp hsome
      obtain ⟨a, hne, hall, _, hs⟩ := Word.braced_eq_some_iff.mp hresult
      exact hdigits ⟨a, _, hne, hall, hs⟩
    rw [hnone]
    cases hfind : find? ['}'] s with
    | none => rfl
    | some m =>
        obtain ⟨a, rest, rfl, rfl⟩ := eq_append_of_find? hfind
        have hfront : front? (byteLength a) (a ++ '}' :: rest) = some a :=
          front?_eq_some_iff.mpr ⟨_, rfl, rfl⟩
        simp only [hfront, Option.bind_some]
        split
        · rename_i hpos
          have hnot : ¬ a.all Numeral.isHexDigit = true := by
            intro hall
            refine hdigits ⟨a, rest, ?_, List.all_eq_true.mp hall, rfl⟩
            rintro rfl
            cases hpos
          rw [if_neg hnot]
          rfl
        · rfl

/-- The length is found of an escape with four digits. -/
theorem escapeLength_four (h : s.head? ≠ some '{') : escapeLength ('\\' :: 'u' :: s) =
    some ((Word.escape ('\\' :: 'u' :: s)).map fun r => byteLength r.1) := by
  have hbehind : behind? 2 ('\\' :: 'u' :: s) = some s :=
    behind?_add (t := ['\\', 'u']) (behind?_zero _)
  have hlength : escapeLength ('\\' :: 'u' :: s) =
      some (if (front? 4 s).any (·.all Numeral.isHexDigit) then some 6 else none) := by
    simp only [escapeLength, hbehind, Option.bind_eq_bind, Option.bind_some]
    split
    · exact absurd rfl h
    · rfl
  rw [hlength, Word.escape_mark, Word.escapeDigits_of_ne_brace h, Option.map_map]
  refine congrArg some ?_
  split
  · rename_i hdigits
    obtain ⟨t, ht, hall⟩ := (Option.any_eq_true _ _).mp hdigits
    obtain ⟨rest, rfl, hfour⟩ := front?_eq_some_iff.mp ht
    have hall := List.all_eq_true.mp hall
    rw [Numeral.byteLength_of_isHexDigit hall] at hfour
    rw [Word.four_eq_some_iff.mpr ⟨hfour.symm, hall, rfl⟩]
    simp only [Option.map_some, Function.comp, prepend, byteLength_cons,
      Numeral.byteLength_of_isHexDigit hall, ← hfour]
    rfl
  · rename_i hdigits
    symm
    rw [Option.map_eq_none_iff]
    by_contra hsome
    obtain ⟨⟨t, rest⟩, hresult⟩ := Option.ne_none_iff_exists'.mp hsome
    obtain ⟨hfour, hall, rfl⟩ := Word.four_eq_some_iff.mp hresult
    refine hdigits ((Option.any_eq_true _ _).mpr ⟨t, ?_, List.all_eq_true.mpr hall⟩)
    rw [front?_eq_some_iff, Numeral.byteLength_of_isHexDigit hall]
    exact ⟨rest, rfl, hfour.symm⟩

/-- The length that is found is that of the escape. -/
theorem escapeLength_eq (s : List Char) : escapeLength ('\\' :: 'u' :: s) =
    some ((Word.escape ('\\' :: 'u' :: s)).map fun r => byteLength r.1) := by
  by_cases hbrace : s.head? = some '{'
  · obtain ⟨body, rfl⟩ := List.head?_eq_some_iff.mp hbrace
    exact escapeLength_brace body
  · exact escapeLength_four hbrace

/-- What is found of a word from the offset `n` on: whether an escape occurs and where it ends, or
the offset of an escape that is not complete. -/
def worded (escaped : Bool) (n : Nat) (s : List Char) : Found (Bool × Nat) :=
  match Word.scanFrom [] escaped s with
  | .ok w => .ok (w.escaped, n + byteLength w.text)
  | .error before => .error (.invalidEscape, n + byteLength before)

/-- The characters of a word already taken come before those that are taken from there on. -/
theorem wordFrom_taken (taken base : List Char) (escaped : Bool) (s : List Char) :
    Word.scanFrom (taken ++ base) escaped s = match Word.scanFrom taken escaped s with
      | .ok w => .ok ⟨base.reverse ++ w.text, w.escaped, w.rest⟩
      | .error before => .error (base.reverse ++ before) := by
  fun_induction Word.scanFrom taken escaped s with
  | case1 => rw [Word.scanFrom, List.reverse_append]
  | case2 taken escaped c rest hpart ih =>
      rw [Word.scanFrom_part hpart, ← ih]
      rfl
  | case3 taken escaped c rest hpart hmark hnone =>
      rw [Word.scanFrom, if_neg hpart, if_pos hmark]
      split
      · rw [List.reverse_append]
      · rename_i hsome
        cases hnone.symm.trans hsome
  | case4 taken escaped c rest hpart hmark t after hescape ih =>
      rw [Word.scanFrom_escape _ _ hescape, ← ih, List.append_assoc]
  | case5 taken escaped c rest hpart hmark =>
      rw [Word.scanFrom, if_neg hpart, if_neg hmark, List.reverse_append]

/-- A part of a word that has been taken moves the offset from which on it is scanned. -/
theorem worded_of_taken {t : List Char} {escaped later : Bool} {rest : List Char}
    (h : Word.scanFrom [] escaped s = Word.scanFrom t.reverse later rest) :
    worded escaped n s = worded later (n + byteLength t) rest := by
  rw [worded, worded, h, ← List.nil_append t.reverse, wordFrom_taken]
  cases Word.scanFrom [] later rest with
  | ok w => simp [Nat.add_assoc]
  | error before => simp [Nat.add_assoc]

/-- An escape that is not complete refuses the word. -/
theorem worded_of_escape {escaped : Bool} (h : Word.escape ('\\' :: 'u' :: s) = none) :
    worded escaped n ('\\' :: 'u' :: s) = .error (.invalidEscape, n) := by
  have hpart : ¬ Identifier.isPart '\\' = true := Bool.false_ne_true
  rw [worded, Word.scanFrom, if_neg hpart, if_pos ⟨rfl, rfl⟩]
  split
  · rename_i hw
    split at hw
    · cases hw
    · rename_i hsome
      cases h.symm.trans hsome
  · rename_i hw
    split at hw
    · cases hw
      rfl
    · rename_i hsome
      cases h.symm.trans hsome

/-- One turn of a word leads to what the scan finds. -/
theorem leads_wordTurn (escaped : Bool) (h : behind? n text = some s) :
    Leads text (fun _ => True) worded n (worded escaped n s) (wordTurn text escaped n) := by
  by_cases hhead : s.head?.any Identifier.isPart = true
  · obtain ⟨c, hc, hpart⟩ := (Option.any_eq_true _ _).mp hhead
    obtain ⟨rest, rfl⟩ := List.head?_eq_some_iff.mp hc
    simp only [wordTurn, peek?_eq h, bump?_cons h, Option.bind_eq_bind, Option.bind_some,
      List.head?_cons, Option.any_some]
    rw [if_pos hpart]
    have hworded := worded_of_taken (n := n) (t := [c]) (Word.scanFrom_part hpart [] escaped rest)
    rw [byteLength_cons, byteLength_nil, Nat.add_zero] at hworded
    exact .again (Nat.lt_add_of_pos_right c.utf8Size_pos) (behind?_next h) trivial hworded.symm
  · simp only [wordTurn, peek?_eq h, h, Option.bind_eq_bind, Option.bind_some, if_neg hhead]
    by_cases hmark : ['\\', 'u'].isPrefixOf s = true
    · obtain ⟨rest, rfl⟩ : ∃ rest, s = '\\' :: 'u' :: rest :=
        (List.isPrefixOf_iff_prefix.mp hmark).imp fun _ hs => hs.symm
      rw [if_pos hmark, escapeLength_eq, Option.bind_some]
      cases hescape : Word.escape ('\\' :: 'u' :: rest) with
      | none =>
          rw [worded_of_escape hescape]
          exact .done
      | some result =>
          obtain ⟨t, after⟩ := result
          have hpos := byteLength_pos (Word.advances_escape _ _ _ hescape)
          rw [← Word.splits_escape _ _ _ hescape] at h
          have hworded := worded_of_taken (n := n) (t := t)
            ((Word.scanFrom_escape [] escaped hescape).trans (by rw [List.append_nil]))
          exact .again (Nat.lt_add_of_pos_right hpos) (behind?_add h) trivial hworded.symm
    · have hstop : Word.continues s = false := by
        rw [Word.continues, Bool.or_eq_false_iff]
        exact ⟨Bool.eq_false_iff.mpr hhead, Bool.eq_false_iff.mpr hmark⟩
      rw [if_neg hmark, worded, Word.scanFrom_stop hstop]
      exact .done

/-- A word is found with its kind where its scan takes one. -/
theorem word_eq (v : Vocabulary) (ctx : Context) {start : Nat} (h : behind? start text = some s) :
    word v ctx text start = some (match Lexeme.word v ctx s with
      | .ok l => .ok (l.kind, start + byteLength l.text)
      | .error e => .error (e.fault, start + byteLength e.before)) := by
  have hloop := loop_eq (fun _ => True) worded (fun escaped _ _ _ hs => leads_wordTurn escaped hs)
    false trivial h
  simp only [word, hloop, Option.bind_eq_bind, Option.bind_some, worded, Lexeme.word, Word.scan]
  cases hscan : Word.scanFrom [] false s with
  | error before => rfl
  | ok w =>
      rw [← Word.append_of_scan hscan] at h
      simp only [between?_eq h, Option.bind_some]

end Checked

end Respell
