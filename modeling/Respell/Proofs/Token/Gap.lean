import Mathlib.Tactic.ByContra
import Respell.Proofs.Text.Matcher
import Respell.Token.Trivia

/-!
# What may stand between tokens

`IsGap` states, without the scanner, which texts may stand between tokens: blanks, comments to the
end of the line and block comments, one after the other. A comment to the end of the line goes up to
where the line ends, so whether a text is a gap depends on what comes behind it. `skip_eq_ok_iff`
states that the scanner finds exactly these and stops where none of them begins.
-/

namespace Respell.Trivia

open Text Text.Matcher Literal

/-- The mark that closes a block comment. -/
def closingMark : List Char := ['*', '/']

/-- The text ends with the mark that closes a comment and has that mark nowhere before. -/
def EndsAtFirstMark (t : List Char) : Prop :=
  closingMark <:+ t ∧ ¬ closingMark <:+: t.dropLast

/-- `IsTrivium t after`: one blank, or one comment, before the text `after`. -/
inductive IsTrivium : List Char → List Char → Prop where
  | blank {c : Char} {after : List Char} :
      Unicode.isBlank c = true ∨ c = '\uFEFF' → IsTrivium [c] after
  | lineComment {mark body after : List Char} :
      mark = ['/', '/'] ∨ mark = ['<', '!', '-', '-'] →
      (∀ c ∈ body, isLineEnd c = false) → (∀ c ∈ after.head?, isLineEnd c = true) →
      IsTrivium (mark ++ body) after
  | blockComment {body after : List Char} :
      EndsAtFirstMark body → IsTrivium (['/', '*'] ++ body) after

/-- `IsGap gap after`: blanks and comments one after the other, before the text `after`. -/
inductive IsGap : List Char → List Char → Prop where
  | nil {after : List Char} : IsGap [] after
  | cons {t gap after : List Char} :
      IsTrivium t (gap ++ after) → IsGap gap after → IsGap (t ++ gap) after

/-- `IsFirstLine line after`: the first line of a text that is no part of the program, before the
text `after`. There is one exactly when the text begins with a hash and an exclamation mark. -/
inductive IsFirstLine : List Char → List Char → Prop where
  | absent {after : List Char} : ¬ ['#', '!'] <+: after → IsFirstLine [] after
  | shebang {body after : List Char} :
      (∀ c ∈ body, isLineEnd c = false) → (∀ c ∈ after.head?, isLineEnd c = true) →
      IsFirstLine (['#', '!'] ++ body) after

/-- The text begins with no blank and no comment. -/
structure Stops (s : List Char) : Prop where
  blank : s.head?.any isBlank = false
  lineComment : beginsLineComment s = false
  blockComment : beginsBlockComment s = false

/-- A text with the mark at its beginning is nothing else. -/
theorem endsAtFirstMark_mark_iff {t : List Char} :
    EndsAtFirstMark ('*' :: '/' :: t) ↔ t = [] := by
  constructor
  · rintro ⟨_, hnot⟩
    cases t with
    | nil => rfl
    | cons c t => exact absurd ⟨[], (c :: t).dropLast, by simp [closingMark]⟩ hnot
  · rintro rfl
    refine ⟨List.suffix_refl _, fun hinside => ?_⟩
    have := hinside.length_le
    simp [closingMark] at this

/-- A first character with which the mark does not begin does not count. -/
theorem endsAtFirstMark_cons_iff {c : Char} {t : List Char}
    (h : ¬ closingMark <+: c :: t) : EndsAtFirstMark (c :: t) ↔ EndsAtFirstMark t := by
  cases t with
  | nil =>
      have hone : ¬ closingMark <:+ [c] := fun hsuffix => by
        have := hsuffix.length_le
        simp [closingMark] at this
      have hnil : ¬ closingMark <:+ [] := fun hsuffix => by
        have := hsuffix.length_le
        simp [closingMark] at this
      simp [EndsAtFirstMark, hone, hnil]
  | cons d t =>
      have hsuffix : closingMark <:+ c :: d :: t ↔ closingMark <:+ d :: t := by
        rw [List.suffix_cons_iff]
        refine or_iff_right fun heq => h ?_
        exact ⟨[], by rw [List.append_nil, heq]⟩
      have hinside : closingMark <:+: c :: (d :: t).dropLast ↔
          closingMark <:+: (d :: t).dropLast := by
        rw [List.infix_cons_iff]
        refine or_iff_right fun hbegin => h (hbegin.trans ?_)
        exact List.cons_prefix_cons.mpr ⟨rfl, List.dropLast_prefix _⟩
      rw [EndsAtFirstMark, EndsAtFirstMark, hsuffix, List.dropLast_cons_cons, hinside]

/-- The star that has been read last in a comment. -/
def pending : CommentState → List Char
  | .plain => []
  | .star => ['*']

/-- A comment is scanned up to the first mark, of which the star may have been read already. -/
theorem scanFrom_comment_iff {state : CommentState} {taken t rest : List Char} :
    scanFrom commentMove state taken (t ++ rest) = some (taken.reverse ++ t, rest) ↔
      EndsAtFirstMark (pending state ++ t) := by
  induction t generalizing state taken with
  | nil =>
      refine iff_of_false (fun h => ?_) ?_
      · obtain ⟨u, hne, hu, _, _⟩ := scanFrom_before h
        exact hne (List.append_cancel_left hu).symm
      · rintro ⟨hsuffix, _⟩
        have := hsuffix.length_le
        cases state <;> simp [closingMark, pending] at this
  | cons c t ih =>
      have htaken : taken.reverse ++ c :: t = (c :: taken).reverse ++ t := by simp
      have hnot : ∀ {d : Char} {u : List Char}, c ≠ '/' → ¬ closingMark <+: d :: c :: u := by
        intro d u hc hbegin
        exact hc (List.cons_prefix_cons.mp (List.cons_prefix_cons.mp hbegin).2).1.symm
      have hnotFirst : c ≠ '*' → ¬ closingMark <+: c :: t := fun hc hbegin =>
        hc (List.cons_prefix_cons.mp hbegin).1.symm
      rw [List.cons_append, scanFrom, htaken]
      cases state with
      | plain =>
          by_cases hstar : c = '*'
          · subst hstar
            exact ih
          · rw [show commentMove .plain c = .go .plain by simp [commentMove, hstar]]
            exact ih.trans (endsAtFirstMark_cons_iff (hnotFirst hstar)).symm
      | star =>
          by_cases hslash : c = '/'
          · subst hslash
            refine Iff.trans ?_ endsAtFirstMark_mark_iff.symm
            show some (('/' :: taken).reverse, t ++ rest) = some (_, rest) ↔ t = []
            simp
          · have hstep := endsAtFirstMark_cons_iff (hnot (d := '*') (u := t) hslash)
            by_cases hstar : c = '*'
            · subst hstar
              exact ih.trans hstep.symm
            · rw [show commentMove .star c = .go .plain by simp [commentMove, hslash, hstar]]
              exact ih.trans ((endsAtFirstMark_cons_iff (hnotFirst hstar)).symm.trans hstep.symm)

/-- A block comment is one that is closed at the first mark. -/
theorem blockComment_eq_some_iff {s t rest : List Char} :
    blockComment s = some (t, rest) ↔
      ∃ body, t = ['/', '*'] ++ body ∧ s = t ++ rest ∧ EndsAtFirstMark body := by
  constructor
  · intro h
    have hsplit := splits_blockComment _ _ _ h
    obtain ⟨u, v, mid, rfl, hslash, h⟩ := sequence_eq_some_iff.mp h
    obtain ⟨w, body, last, rfl, hstar, hscan⟩ := sequence_eq_some_iff.mp h
    obtain ⟨rfl, _⟩ := exactly_eq_some_iff.mp hslash
    obtain ⟨rfl, _⟩ := exactly_eq_some_iff.mp hstar
    refine ⟨body, rfl, hsplit.symm, ?_⟩
    rw [← splits_scan _ _ _ _ _ hscan] at hscan
    exact scanFrom_comment_iff.mp hscan
  · rintro ⟨body, rfl, rfl, hbody⟩
    have hscan : scan commentMove .plain (body ++ rest) = some (body, rest) :=
      scanFrom_comment_iff.mpr hbody
    simp [blockComment, Matcher.sequence, exactly, one, hscan]

/-- A text that begins with one of the marks of a comment begins with no blank. -/
theorem not_begins_of_isBlank {c : Char} {s : List Char} (h : isBlank c = true) :
    beginsLineComment (c :: s) = false ∧ beginsBlockComment (c :: s) = false := by
  have hslash : ('/' == c) = false := by
    rw [beq_eq_false_iff_ne]
    rintro rfl
    cases h
  have hless : ('<' == c) = false := by
    rw [beq_eq_false_iff_ne]
    rintro rfl
    cases h
  simp only [beginsLineComment, beginsBlockComment, List.isPrefixOf, hslash, hless, Bool.false_and,
    Bool.or_self, and_self]

/-- The marks of a comment that runs to the end of the line do not end it. -/
theorem isLineEnd_of_mem_mark {mark : List Char}
    (h : mark = ['/', '/'] ∨ mark = ['<', '!', '-', '-']) : ∀ c ∈ mark, isLineEnd c = false := by
  rcases h with rfl | rfl <;> simp [isLineEnd]

/-- A comment to the end of the line begins with one of the two marks. -/
theorem beginsLineComment_iff {s : List Char} : beginsLineComment s = true ↔
    ∃ mark, (mark = ['/', '/'] ∨ mark = ['<', '!', '-', '-']) ∧ mark <+: s := by
  rw [beginsLineComment, Bool.or_eq_true, List.isPrefixOf_iff_prefix, List.isPrefixOf_iff_prefix]
  constructor
  · rintro (h | h)
    · exact ⟨_, Or.inl rfl, h⟩
    · exact ⟨_, Or.inr rfl, h⟩
  · rintro ⟨mark, rfl | rfl, h⟩
    · exact Or.inl h
    · exact Or.inr h

/-- The characters up to the end of the line are taken, when the text goes on with one. -/
theorem line_eq_some_iff {s t rest : List Char} : line s = some (t, rest) ↔
    s = t ++ rest ∧ (∀ c ∈ t, isLineEnd c = false) ∧ ∀ c ∈ rest.head?, isLineEnd c = true := by
  rw [line, many_eq_some_iff]
  refine and_congr_right fun _ => and_congr (by simp) ?_
  cases rest with
  | nil => simp
  | cons c rest => simp

/-- A blank or comment that is read is one, and every one is read. -/
theorem trivium_eq_some_iff {s t rest : List Char} :
    trivium s = some (t, rest) ↔ s = t ++ rest ∧ IsTrivium t rest := by
  constructor
  · intro h
    have hsplit := splits_trivium _ _ _ h
    refine ⟨hsplit.symm, ?_⟩
    rw [trivium] at h
    split at h
    · rename_i hbegins
      obtain ⟨mark, hmark, hbegin⟩ := beginsLineComment_iff.mp hbegins
      obtain ⟨rfl, hall, hend⟩ := line_eq_some_iff.mp h
      -- The mark ends no line, so all of it belongs to what is taken.
      have hmarkTaken : mark <+: t := by
        rcases List.prefix_or_prefix_of_prefix hbegin (List.prefix_append t rest) with h | h
        · exact h
        · obtain ⟨more, rfl⟩ := h
          cases more with
          | nil => simp
          | cons d more =>
              have hrest := (List.prefix_append_right_inj t).mp hbegin
              obtain ⟨tail, rfl⟩ := hrest
              have hd := isLineEnd_of_mem_mark hmark d (by simp)
              rw [hend d rfl] at hd
              cases hd
      obtain ⟨body, rfl⟩ := hmarkTaken
      exact .lineComment hmark (fun c hc => hall c (List.mem_append_right _ hc)) hend
    · split at h
      · obtain ⟨body, rfl, _, hbody⟩ := blockComment_eq_some_iff.mp h
        exact .blockComment hbody
      · cases s with
        | nil => cases h
        | cons c s =>
            rw [one] at h
            split at h
            · rename_i hblank
              cases h
              rw [isBlank, Bool.or_eq_true, beq_iff_eq] at hblank
              exact .blank hblank
            · cases h
  · rintro ⟨rfl, htrivium⟩
    cases htrivium with
    | @blank c _ hblank =>
        have hblank : isBlank c = true := by
          rw [isBlank, Bool.or_eq_true, beq_iff_eq]
          exact hblank
        obtain ⟨hline, hblock⟩ := not_begins_of_isBlank (s := rest) hblank
        rw [List.singleton_append, trivium, hline, hblock]
        simp [one, hblank]
    | @lineComment mark body _ hmark hbody hend =>
        have hbegins : beginsLineComment (mark ++ body ++ rest) = true :=
          beginsLineComment_iff.mpr ⟨mark, hmark, ⟨body ++ rest, (List.append_assoc _ _ _).symm⟩⟩
        rw [trivium, if_pos hbegins, line_eq_some_iff]
        refine ⟨rfl, fun c hc => ?_, hend⟩
        rcases List.mem_append.mp hc with hc | hc
        · exact isLineEnd_of_mem_mark hmark c hc
        · exact hbody c hc
    | @blockComment body _ hbody =>
        rw [trivium, if_neg (by simp [beginsLineComment]), if_pos (by rfl)]
        exact blockComment_eq_some_iff.mpr ⟨body, rfl, rfl, hbody⟩

/-- Where no blank and no comment begins, nothing is read and no comment is open. -/
theorem stops_iff {s : List Char} :
    Stops s ↔ trivium s = none ∧ beginsBlockComment s = false := by
  constructor
  · rintro ⟨hblank, hline, hblock⟩
    refine ⟨?_, hblock⟩
    rw [trivium, hline, hblock]
    cases s with
    | nil => rfl
    | cons c s =>
        rw [List.head?_cons, Option.any_some] at hblank
        simp [one, hblank]
  · rintro ⟨hnone, hblock⟩
    rw [trivium, hblock] at hnone
    split at hnone
    · cases hnone
    · rename_i hline
      refine ⟨?_, by simpa using hline, hblock⟩
      cases s with
      | nil => rfl
      | cons c s =>
          rw [List.head?_cons, Option.any_some]
          by_contra hblank
          simp [one, hblank] at hnone

/-- The scan of a gap takes a gap and stops where none goes on. -/
theorem isGap_of_skipFrom {taken s gap rest : List Char}
    (h : skipFrom taken s = .ok (gap, rest)) :
    ∃ g, gap = taken.reverse ++ g ∧ s = g ++ rest ∧ IsGap g rest ∧ Stops rest := by
  fun_induction skipFrom taken s with
  | case1 taken s t after htrivium ih =>
      obtain ⟨g, hgap, hs, hisGap, hstops⟩ := ih h
      obtain ⟨rfl, ht⟩ := trivium_eq_some_iff.mp htrivium
      subst hs
      exact ⟨t ++ g, by rw [hgap]; simp, (List.append_assoc _ _ _).symm, .cons ht hisGap, hstops⟩
  | case2 => cases h
  | case3 taken s hnone hblock =>
      cases h
      exact ⟨[], by simp, rfl, .nil, stops_iff.mpr ⟨hnone, by simpa using hblock⟩⟩

/-- A gap before a text that begins with no blank and no comment is taken as a whole. -/
theorem IsGap.skipFrom {gap rest : List Char} (h : IsGap gap rest) (hstops : Stops rest)
    (taken : List Char) : skipFrom taken (gap ++ rest) = .ok (taken.reverse ++ gap, rest) := by
  induction h generalizing taken with
  | nil =>
      obtain ⟨hnone, hblock⟩ := stops_iff.mp hstops
      rw [List.nil_append, List.append_nil, Trivia.skipFrom]
      split
      · rename_i t after hsome
        cases hnone.symm.trans hsome
      · rw [if_neg (by simp [hblock])]
  | @cons t gap after ht _ ih =>
      have htrivium := trivium_eq_some_iff.mpr ⟨rfl, ht⟩
      rw [List.append_assoc, Trivia.skipFrom]
      split
      · rename_i u mid hsome
        cases htrivium.symm.trans hsome
        rw [ih hstops]
        simp
      · rename_i hnone
        cases htrivium.symm.trans hnone

/-- The longest gap at the beginning of a text is skipped, and nothing else. -/
theorem skip_eq_ok_iff {s gap rest : List Char} :
    skip s = .ok (gap, rest) ↔ s = gap ++ rest ∧ IsGap gap rest ∧ Stops rest := by
  constructor
  · intro h
    obtain ⟨g, rfl, hs, hgap, hstops⟩ := isGap_of_skipFrom h
    exact ⟨hs, hgap, hstops⟩
  · rintro ⟨rfl, hgap, hstops⟩
    exact hgap.skipFrom hstops []

/-- Where neither a blank nor a comment begins, nothing is skipped. -/
theorem skip_of_stops {s : List Char} (h : Stops s) : skip s = .ok ([], s) :=
  skip_eq_ok_iff.mpr ⟨rfl, .nil, h⟩

/-- The first line is the one that is no part of the program. -/
theorem skipShebang_eq_iff {s line rest : List Char} :
    skipShebang s = (line, rest) ↔ s = line ++ rest ∧ IsFirstLine line rest := by
  rw [skipShebang]
  constructor
  · intro h
    split at h
    · rename_i hmark
      rw [List.isPrefixOf_iff_prefix] at hmark
      obtain ⟨t, rfl⟩ := hmark
      cases h
      obtain ⟨ht, hbody, hend⟩ := line_eq_some_iff.mp (rfl : Trivia.line t = some _)
      exact ⟨congrArg (['#', '!'] ++ ·) ht, .shebang hbody hend⟩
    · rename_i hmark
      cases h
      exact ⟨rfl, .absent fun hbegin => hmark (List.isPrefixOf_iff_prefix.mpr hbegin)⟩
  · rintro ⟨rfl, hline⟩
    cases hline with
    | absent hmark =>
        rw [List.nil_append, if_neg fun h => hmark (List.isPrefixOf_iff_prefix.mp h)]
    | @shebang body _ hbody hend =>
        have hmany := line_eq_some_iff.mpr ⟨rfl, hbody, hend⟩
        rw [line, many, Option.some.injEq, Prod.mk.injEq] at hmany
        rw [if_pos (by rfl)]
        show ('#' :: '!' :: (body ++ rest).takeWhile _, (body ++ rest).dropWhile _) = _
        rw [hmany.1, hmany.2]
        rfl

end Respell.Trivia
