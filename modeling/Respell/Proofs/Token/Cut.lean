import Respell.Proofs.Token.Diagnosis
import Respell.Proofs.Token.Separated

/-!
# A text that is cut off behind a token

What stands behind a token never changes the tokens before. A text is cut behind one of its tokens
and goes on with a blank, or is over, and the reading comes to the end of that token as before.
`Cut` says what has to be known of the place, and `Lexeme.read_cut` reads one token that ends before
it or there. `Yields.resumes` carries this through all the tokens before the place: from there on
the run is that of the new text alone, which keeps the tokens before it and is at fault only behind
them.
-/

namespace Respell

open Text Text.Matcher

/-- The text `middle ++ s` is cut behind `middle` and goes on with `r`, which is empty or begins
with a blank. A point that is all of `middle` does not begin a numeral. -/
structure Cut (middle s r : List Char) : Prop where
  separates : Trivia.Separates r
  point : middle = ['.'] → s.head?.any Char.isDigit = false

/-- Where neither text that may come first has the property, the first character has not either. -/
theorem any_head?_append {middle s r : List Char} {p : Char → Bool}
    (h : (middle ++ s).head?.any p = false) (hr : r.head?.any p = false) :
    (middle ++ r).head?.any p = false := by
  cases middle with
  | nil => exact hr
  | cons c middle => exact h

namespace Trivia

variable {gap t s r : List Char}

/-- The gap before a token does not depend on what is behind the token. -/
theorem skip_cut (h : skip (gap ++ (t ++ s)) = .ok (gap, t ++ s)) (hne : t ≠ [])
    (hr : Separates r) : skip (gap ++ (t ++ r)) = .ok (gap, t ++ r) := by
  obtain ⟨_, hgap, hstops⟩ := skip_eq_ok_iff.mp h
  refine skip_eq_ok_iff.mpr ⟨rfl, hgap.congr fun hend => ?_, hstops.of_separates hne hr⟩
  obtain ⟨c, t, rfl⟩ := List.exists_cons_of_ne_nil hne
  exact hend

/-- The first line does not depend on what is behind the first token. -/
theorem IsFirstLine.cut {line : List Char} (h : IsFirstLine line (t ++ s)) (hne : t ≠ [])
    (hr : Separates r) : IsFirstLine line (t ++ r) := by
  cases h with
  | absent hmark =>
      refine .absent fun hbegin => hmark ?_
      exact ((hr.prefix_append_iff rfl).mp hbegin).trans (List.prefix_append t s)
  | shebang hbody hend =>
      refine .shebang hbody ?_
      obtain ⟨c, t, rfl⟩ := List.exists_cons_of_ne_nil hne
      exact hend

end Trivia

/-- A word that did not go on before the cut does not go on behind it. -/
theorem Word.continues_cut {middle s r : List Char} (h : continues (middle ++ s) = false)
    (hr : Trivia.Separates r) : continues (middle ++ r) = false := by
  obtain ⟨hpart, hmark⟩ := Bool.or_eq_false_iff.mp h
  refine Bool.or_eq_false_iff.mpr ⟨any_head?_append hpart hr.any_head_isPart, ?_⟩
  by_contra hescape
  rw [Bool.not_eq_false, List.isPrefixOf_iff_prefix, hr.prefix_append_iff rfl] at hescape
  have hbefore := List.isPrefixOf_iff_prefix.mpr (hescape.trans (List.prefix_append middle s))
  rw [hmark] at hbefore
  cases hbefore

namespace Punctuator

variable {t middle s r : List Char}

/-- Behind a question mark and a point stands a digit on both sides of the cut or on none. -/
theorem digit_cut {c : Char} (hne : t ≠ []) (hcut : Cut (c :: middle) s r) :
    ∀ x, t ++ (c :: middle ++ s) = '?' :: '.' :: x →
      ∃ y, t ++ (c :: middle ++ r) = '?' :: '.' :: y ∧
        x.head?.any Char.isDigit = y.head?.any Char.isDigit := by
  intro x hx
  obtain ⟨d, t, rfl⟩ := List.exists_cons_of_ne_nil hne
  obtain ⟨rfl, htail⟩ := List.cons.inj hx
  cases t with
  | cons e t =>
      obtain ⟨rfl, rfl⟩ := List.cons.inj htail
      refine ⟨t ++ (c :: middle ++ r), rfl, ?_⟩
      cases t <;> rfl
  | nil =>
      obtain ⟨rfl, rfl⟩ := List.cons.inj htail
      refine ⟨middle ++ r, rfl, ?_⟩
      cases middle with
      | cons e middle => rfl
      | nil =>
          exact (hcut.point rfl).trans (hcut.separates.any_head Numeral.isVisible_of_isDigit).symm

/-- A punctuator that ends before the cut, or there, is read again. -/
theorem punctuator_cut (h : punctuator (t ++ (middle ++ s)) = some (t, middle ++ s))
    (hcut : Cut middle s r) : punctuator (t ++ (middle ++ r)) = some (t, middle ++ r) := by
  cases middle with
  | nil => exact punctuator_separated h hcut.separates
  | cons c middle =>
      have hbefore (x : List Char) : t ++ c :: middle <+: t ++ (c :: middle ++ x) := ⟨x, by simp⟩
      refine punctuator_of_imp h (fun p _ hp hlength => ?_) (fun q hq hprefix => ?_)
        (digit_cut (advances_punctuator _ _ _ h) hcut)
      · have hle : p.length ≤ (t ++ c :: middle).length := by
          rw [List.length_append, List.length_cons]
          omega
        exact (List.prefix_of_prefix_length_le hp (hbefore s) hle).trans (hbefore r)
      · rw [← List.append_assoc, hcut.separates.prefix_append_iff (all_isVisible_of_mem_all q hq)]
          at hprefix
        exact hprefix.trans (hbefore s)

end Punctuator

namespace Lexeme

variable {v : Vocabulary} {ctx : Context} {c : Char} {rest middle s r : List Char} {l : Lexeme}
  {f : Form}

/-- Every lexeme that ends before the cut, or there, ends where it did. -/
theorem endsBefore_cut (h : readForm v ctx c (l.text ++ l.rest) f = .ok l)
    (hrest : l.rest = middle ++ s) (hcut : Cut middle s r) : EndsBefore l (middle ++ r) f := by
  cases f with
  | string | template => trivial
  | privateName | regex =>
      have hend := any_isPart_of_readForm h (by simp)
      rw [hrest] at hend
      exact any_head?_append hend hcut.separates.any_head_isPart
  | word => exact Word.continues_cut (hrest ▸ continues_of_word h) hcut.separates
  | numeral =>
      have hm := (ofMatcher_eq_ok_iff.mp h).2
      rw [hrest] at hm
      exact Numeral.greedy_numeral.ends Numeral.splits_numeral Numeral.takesOnly_numeral middle hm
        (hcut.separates.any_head Numeral.isVisible_of_isNumeralPart)
  | punctuator =>
      have hm := (ofMatcher_eq_ok_iff.mp h).2
      rw [hrest] at hm
      exact Punctuator.punctuator_cut hm hcut

/-- A lexeme that ends before the cut, or there, is read again. -/
theorem read_cut (h : read v ctx c rest = .ok l) (hrest : l.rest = middle ++ s)
    (hcut : Cut middle s r) : ∃ rest', l.text ++ (middle ++ r) = c :: rest' ∧
      read v ctx c rest' = .ok ⟨l.kind, l.text, middle ++ r⟩ := by
  have hread := h
  rw [read_eq_readForm, ← (reads_of_read h).1] at hread
  have hctx : ctx.AgreesAt v v ctx c := ⟨fun _ => rfl, fun _ => rfl⟩
  refine read_elsewhere hctx rfl h (fun htext => ?_) (endsBefore_cut hread hrest hcut)
  cases middle with
  | nil => exact form_separated hctx h hcut.separates htext
  | cons d middle => rw [hrest]; rfl

/-- What is left before the cut and the lexeme is a point only where no digit stands behind it. -/
theorem cut_behind {gap : List Char} (h : read v ctx c rest = .ok l) (hrest : l.rest = middle ++ s)
    (hr : Trivia.Separates r) : Cut (gap ++ (l.text ++ middle)) s r where
  separates := hr
  point hpoint := by
    obtain ⟨happend, hne⟩ := reads_of_read h
    obtain ⟨d, t, ht⟩ := List.exists_cons_of_ne_nil hne
    have hlength := congrArg List.length hpoint
    rw [ht] at hpoint hlength happend
    simp only [List.length_append, List.length_cons, List.length_nil] at hlength
    obtain rfl : gap = [] := List.length_eq_zero_iff.mp (by omega)
    obtain rfl : t = [] := List.length_eq_zero_iff.mp (by omega)
    obtain rfl : middle = [] := List.length_eq_zero_iff.mp (by omega)
    obtain ⟨rfl, _⟩ := List.cons.inj happend
    obtain rfl : d = '.' := List.singleton_inj.mp hpoint
    rw [List.nil_append] at hrest
    rw [← hrest]
    exact any_isDigit_of_read_point h ht

end Lexeme

namespace LexerState

variable {v : Vocabulary} {s t : LexerState} {middle : List Char}

/-- From `s` the reading comes to `t` over the text `middle`, whatever stands behind `middle`, if
only it is separated: with another such text there, the reading goes on with that one in place of
its own. -/
structure Resumes (v : Vocabulary) (s t : LexerState) (middle : List Char) : Prop where
  rest : s.rest = middle ++ t.rest
  offset : t.offset = s.offset + byteLength middle
  cut : ∀ r, Trivia.Separates r → Cut middle t.rest r
  run : ∀ r, Trivia.Separates r → { s with rest := middle ++ r }.run v = { t with rest := r }.run v

/-- Over no text the reading has come to where it is. -/
theorem Resumes.refl (v : Vocabulary) (s : LexerState) : Resumes v s s [] where
  rest := rfl
  offset := rfl
  cut _ hr := ⟨hr, fun hnil => nomatch hnil⟩
  run _ _ := rfl

/-- With one more gap and lexeme before it, the reading comes to the same state. -/
theorem Resumes.step {gap rest : List Char} {c : Char} {l : Lexeme}
    (hskip : Trivia.skip s.rest = .ok (gap, c :: rest))
    (hread : Lexeme.read v s.context c rest = .ok l)
    (h : Resumes v (accept v s.context (s.offset + byteLength gap) l) t middle) :
    Resumes v s t (gap ++ (l.text ++ middle)) := by
  obtain ⟨happend, hne⟩ := Lexeme.reads_of_read hread
  have hrest : l.rest = middle ++ t.rest := h.rest
  have htext : s.rest = gap ++ (l.text ++ l.rest) := by
    rw [happend, Trivia.append_of_skip hskip]
  refine ⟨?_, ?_, fun r hr => Lexeme.cut_behind hread hrest hr, fun r hr => ?_⟩
  · rw [htext, hrest, List.append_assoc, List.append_assoc]
  · have hoffset : t.offset = (l.token (s.offset + byteLength gap)).stop + byteLength middle :=
      h.offset
    rw [hoffset, Token.stop_eq, Lexeme.token_start, Lexeme.token_chars]
    simp only [byteLength_append]
    omega
  · obtain ⟨rest', hrest', hread'⟩ := Lexeme.read_cut hread hrest (h.cut r hr)
    rw [htext, ← happend, hrest, ← List.append_assoc l.text] at hskip
    have hskip' := Trivia.skip_cut hskip (List.append_ne_nil_of_left_ne_nil hne _) hr
    have hbehind : l.text ++ middle ++ r = c :: rest' := by rw [List.append_assoc, hrest']
    rw [hbehind] at hskip'
    have hnext : next v { s with rest := gap ++ c :: rest' } = .ok (some
        (accept v s.context (s.offset + byteLength gap) ⟨l.kind, l.text, middle ++ r⟩)) :=
      next_eq_some_iff.mpr ⟨gap, c, rest', _, hskip', hread', rfl⟩
    rw [List.append_assoc, hbehind, run_eq, hnext]
    exact h.run r hr

/-- Over the tokens of the first pieces the reading comes to a state that has these tokens. -/
theorem Yields.resumes {front back : List Piece} {last : List Char}
    (h : Yields v s (front ++ back) last) :
    ∃ t, Resumes v s t (Piece.weave Token.chars front []) ∧
      t.tokens = s.tokens ++ front.map Piece.token := by
  induction front generalizing s with
  | nil => exact ⟨s, .refl v s, (List.append_nil _).symm⟩
  | cons p front ih =>
      cases h with
      | token hskip hread hyields =>
          obtain ⟨t, ht, htokens⟩ := ih hyields
          refine ⟨t, ?_, ?_⟩
          · rw [Piece.weave, Lexeme.token_chars]
            exact ht.step hskip hread
          · rw [htokens, tokens_accept, List.append_assoc]
            rfl

/-- Pieces that are yielded are written of something. -/
theorem Yields.weave_ne_nil {front back : List Piece} {last : List Char}
    (h : Yields v s (front ++ back) last) (hne : front ≠ []) :
    Piece.weave Token.chars front [] ≠ [] := by
  cases front with
  | nil => exact absurd rfl hne
  | cons p front =>
      cases h with
      | token hskip hread hyields =>
          rw [Piece.weave, Lexeme.token_chars]
          refine List.append_ne_nil_of_right_ne_nil _ (List.append_ne_nil_of_left_ne_nil ?_ _)
          exact (Lexeme.reads_of_read hread).2

/-- The first line of a text that is cut behind its first token is that of the whole text. -/
theorem initial_cut {text line r : List Char} (htext : text = line ++ (middle ++ s.rest))
    (hline : Trivia.IsFirstLine line (middle ++ s.rest)) (hne : middle ≠ [])
    (hr : Trivia.Separates r) :
    initial (line ++ (middle ++ r)) = { initial text with rest := middle ++ r } := by
  have hshebang := Trivia.skipShebang_eq_iff.mpr ⟨htext, hline⟩
  rw [initial, initial, Trivia.skipShebang_eq_iff.mpr ⟨rfl, hline.cut hne hr⟩, hshebang]

/-- A run is at fault behind where it begins. -/
theorem offset_le_of_run {e : LexicalFault × Nat} (h : s.run v = .error e) : s.offset ≤ e.2 := by
  fun_induction run v s with
  | case1 s e' hnext =>
      cases h
      obtain ⟨before, _, _, hoffset, _⟩ := shows_of_next hnext
      rw [hoffset]
      exact Nat.le_add_right _ _
  | case2 => cases h
  | case3 s t hnext ih => exact Nat.le_trans (Nat.le_of_lt (offset_lt_of_next hnext)) (ih h)

end LexerState

/-- A text that is cut behind one of its tokens, and then is over or goes on with a blank, has the
same tokens up to there, or is refused for something that stands behind that token. -/
theorem tokenize_cut {v : Vocabulary} {text : String} {tokens : List Token} {k : Nat} {t : Token}
    (h : tokenize v text = .ok tokens) (hk : tokens[k]? = some t) :
    ∃ cut tail, text.toList = cut ++ tail ∧ byteLength cut = t.stop ∧
      ∀ r, Trivia.Separates r →
        (∃ more, tokenize v (String.ofList (cut ++ r)) = .ok (tokens.take (k + 1) ++ more)) ∨
        ∃ e, tokenize v (String.ofList (cut ++ r)) = .error e ∧ t.stop ≤ e.offset := by
  obtain ⟨pieces, last, hyields, rfl⟩ := tokenize_eq_ok_iff.mp h
  rw [List.getElem?_map, Option.map_eq_some_iff] at hk
  obtain ⟨p, hp, rfl⟩ := hk
  have hlast : (pieces.take (k + 1)).getLast? = some p := by
    rw [List.getLast?_take, if_neg (Nat.succ_ne_zero k)]
    simp [hp]
  have hne : pieces.take (k + 1) ≠ [] := fun hnil => by
    rw [hnil] at hlast
    cases hlast
  rw [← List.take_append_drop (k + 1) pieces] at hyields
  -- The state behind the token, by the tokens that it has and by its offset.
  obtain ⟨u, hu, htokens⟩ := hyields.resumes
  obtain ⟨u', _, _, hoffset, hstop⟩ := hyields.split
  rw [hoffset, ← hu.offset, hlast] at hstop
  have hstop : u.offset = p.token.stop := hstop
  obtain ⟨line, hline, htext, hfirst⟩ := LexerState.initial_eq text.toList
  rw [hu.rest] at htext hfirst
  refine ⟨line ++ Piece.weave Token.chars (pieces.take (k + 1)) [], u.rest, ?_, ?_, fun r hr => ?_⟩
  · rw [htext, List.append_assoc]
  · rw [byteLength_append, ← hline, ← hu.offset, hstop]
  · have hrun := hu.run r hr
    rw [← LexerState.initial_cut htext hfirst (hyields.weave_ne_nil hne) hr,
      ← List.append_assoc] at hrun
    rw [tokenize, String.toList_ofList, hrun]
    cases hresult : ({ u with rest := r } : LexerState).run v with
    | ok found =>
        left
        obtain ⟨more, _, _, rfl⟩ := LexerState.run_eq_ok_iff.mp hresult
        refine ⟨more.map Piece.token, ?_⟩
        show Except.ok (u.tokens ++ _) = _
        rw [htokens, List.map_take]
        rfl
    | error e =>
        right
        refine ⟨_, rfl, ?_⟩
        have hle := LexerState.offset_le_of_run hresult
        rw [← hstop]
        exact hle

/-- The question mark before a point and a digit is cut off from both. -/
theorem tokenize_cut_conditional :
    let v : Vocabulary := ⟨"plain", ⟨[("if", "if")], List.pairwise_singleton _ _⟩,
      List.pairwise_singleton _ _⟩
    let text := "π?.5:b"
    let tokens : List Token := [⟨.identifier, "π", 0⟩, ⟨.punctuator, "?", 2⟩, ⟨.numeric, ".5", 3⟩,
      ⟨.punctuator, ":", 5⟩, ⟨.identifier, "b", 6⟩]
    let t : Token := ⟨.punctuator, "?", 2⟩
    tokenize v text = .ok tokens ∧ tokens[1]? = some t ∧
      ∃ cut tail, text.toList = cut ++ tail ∧ byteLength cut = t.stop ∧
        ∀ r, Trivia.Separates r →
          (∃ more, tokenize v (String.ofList (cut ++ r)) = .ok (tokens.take 2 ++ more)) ∨
          ∃ e, tokenize v (String.ofList (cut ++ r)) = .error e ∧ t.stop ≤ e.offset := by
  intro v text tokens t
  have h : tokenize v text = .ok tokens := by decide +kernel
  exact ⟨h, rfl, tokenize_cut h rfl⟩

end Respell
