import Respell.Proofs.Token.Gap
import Respell.Token.Lexer

/-!
# The pieces of a text

A run over a text finds tokens, each with the blanks and comments before it, and stops behind the
last of these. `Yields` is the run as a relation, with the gaps that the run itself forgets, and
`run_eq_ok_iff` states that both find the same tokens. Everything that holds of every token of a
text is proved by induction on this relation. `Yields.weave_eq` and `Yields.placed` are the first
such facts: the pieces written one after the other are the text, and the tokens are where they
stand.
-/

namespace Respell

open Text

/-- A token with the blanks and comments before it. -/
structure Piece where
  gap : List Char
  token : Token

namespace Piece

/-- The characters of the pieces and of the gap `last` behind them, the tokens written by `f`. -/
def weave (f : Token → List Char) : List Piece → List Char → List Char
  | [], last => last
  | p :: pieces, last => p.gap ++ (f p.token ++ weave f pieces last)

/-- Every token begins right after its gap, when the first gap begins at the offset `n`. -/
def Placed : Nat → List Piece → Prop
  | _, [] => True
  | n, p :: pieces => p.token.start = n + byteLength p.gap ∧ Placed p.token.stop pieces

end Piece

/-- The characters of a token. -/
def Token.chars (t : Token) : List Char := t.text.toList

/-- The byte length of a token is that of its characters. -/
theorem Token.stop_eq (t : Token) : t.stop = t.start + byteLength t.chars := by
  rw [Token.stop, Token.chars, ← utf8ByteSize_ofList, String.ofList_toList]

/-- The lexeme as a token at the byte offset `start`. -/
def Lexeme.token (l : Lexeme) (start : Nat) : Token := ⟨l.kind, String.ofList l.text, start⟩

@[simp] theorem Lexeme.token_kind (l : Lexeme) (start : Nat) : (l.token start).kind = l.kind := rfl

@[simp] theorem Lexeme.token_start (l : Lexeme) (start : Nat) : (l.token start).start = start := rfl

@[simp] theorem Lexeme.token_text (l : Lexeme) (start : Nat) :
    (l.token start).text = String.ofList l.text := rfl

@[simp] theorem Lexeme.token_chars (l : Lexeme) (start : Nat) : (l.token start).chars = l.text :=
  String.toList_ofList

namespace LexerState

variable {v : Vocabulary}

/-- `Yields v s pieces last`: read on from `s`, the text consists of the tokens of `pieces`, each
after its gap, and of the gap `last`. -/
inductive Yields (v : Vocabulary) : LexerState → List Piece → List Char → Prop where
  | done {s : LexerState} {last : List Char} :
      Trivia.skip s.rest = .ok (last, []) → Yields v s [] last
  | token {s : LexerState} {gap rest last : List Char} {c : Char} {l : Lexeme}
      {pieces : List Piece} :
      Trivia.skip s.rest = .ok (gap, c :: rest) →
      Lexeme.read v s.context c rest = .ok l →
      Yields v (accept v s.context (s.offset + byteLength gap) l) pieces last →
      Yields v s (⟨gap, l.token (s.offset + byteLength gap)⟩ :: pieces) last

/-- The run goes on from the next state. -/
theorem run_eq (v : Vocabulary) (s : LexerState) :
    s.run v = match s.next v with
      | .error e => .error e
      | .ok none => .ok s.context.before.reverse
      | .ok (some t) => t.run v := by
  rw [run]
  split <;> simp only [*]

/-- A step ends the run exactly when only a gap is left. -/
theorem next_eq_none_iff {s : LexerState} :
    s.next v = .ok none ↔ ∃ last, Trivia.skip s.rest = .ok (last, []) := by
  constructor
  · intro h
    rw [next] at h
    split at h
    · cases h
    · rename_i last hskip
      exact ⟨last, hskip⟩
    · dsimp only at h
      split at h <;> cases h
  · rintro ⟨last, hskip⟩
    rw [next, hskip]

/-- A step finds a token exactly when one is read after the gap. -/
theorem next_eq_some_iff {s t : LexerState} :
    s.next v = .ok (some t) ↔ ∃ gap c rest l, Trivia.skip s.rest = .ok (gap, c :: rest) ∧
      Lexeme.read v s.context c rest = .ok l ∧
      t = accept v s.context (s.offset + byteLength gap) l := by
  constructor
  · intro h
    rw [next] at h
    split at h
    · cases h
    · cases h
    · rename_i gap c rest hskip
      dsimp only at h
      split at h
      · cases h
      · rename_i l hread
        cases h
        exact ⟨gap, c, rest, l, hskip, hread, rfl⟩
  · rintro ⟨gap, c, rest, l, hskip, hread, rfl⟩
    rw [next, hskip]
    simp only [hread]

/-- The tokens of the pieces come after those that the state has already. -/
theorem Yields.run_eq_ok {s : LexerState} {pieces : List Piece} {last : List Char}
    (h : Yields v s pieces last) :
    s.run v = .ok (s.context.before.reverse ++ pieces.map Piece.token) := by
  induction h with
  | done hskip =>
      rw [run_eq, next_eq_none_iff.mpr ⟨_, hskip⟩, List.map_nil, List.append_nil]
  | token hskip hread _ ih =>
      rw [run_eq, next_eq_some_iff.mpr ⟨_, _, _, _, hskip, hread, rfl⟩]
      dsimp only
      rw [ih]
      simp [accept, Context.push, Lexeme.token]

/-- A run that succeeds has found pieces. -/
theorem exists_yields_of_run {s : LexerState} {tokens : List Token} (h : s.run v = .ok tokens) :
    ∃ pieces last, Yields v s pieces last := by
  fun_induction run v s with
  | case1 => cases h
  | case2 s hnext =>
      obtain ⟨last, hskip⟩ := next_eq_none_iff.mp hnext
      exact ⟨[], last, .done hskip⟩
  | case3 s t hnext ih =>
      obtain ⟨pieces, last, hyields⟩ := ih h
      obtain ⟨gap, c, rest, l, hskip, hread, rfl⟩ := next_eq_some_iff.mp hnext
      exact ⟨_, last, .token hskip hread hyields⟩

/-- The run finds exactly the tokens of the pieces. -/
theorem run_eq_ok_iff {s : LexerState} {tokens : List Token} :
    s.run v = .ok tokens ↔ ∃ pieces last, Yields v s pieces last ∧
      tokens = s.context.before.reverse ++ pieces.map Piece.token := by
  constructor
  · intro h
    obtain ⟨pieces, last, hyields⟩ := exists_yields_of_run h
    exact ⟨pieces, last, hyields, Except.ok.inj (h.symm.trans hyields.run_eq_ok)⟩
  · rintro ⟨pieces, last, hyields, rfl⟩
    exact hyields.run_eq_ok

/-- The pieces written one after the other are the rest of the text. -/
theorem Yields.weave_eq {s : LexerState} {pieces : List Piece} {last : List Char}
    (h : Yields v s pieces last) : Piece.weave Token.chars pieces last = s.rest := by
  induction h with
  | done hskip => simpa [Piece.weave] using Trivia.append_of_skip hskip
  | token hskip hread _ ih =>
      rw [Piece.weave, ih, Lexeme.token_chars, ← Trivia.append_of_skip hskip]
      exact congrArg _ (Lexeme.reads_of_read hread).1

/-- Every token begins right after its gap. -/
theorem Yields.placed {s : LexerState} {pieces : List Piece} {last : List Char}
    (h : Yields v s pieces last) : Piece.Placed s.offset pieces := by
  induction h with
  | done => trivial
  | token _ _ _ ih => exact ⟨rfl, ih⟩

/-- Between two pieces the run is in a state that yields the second part. -/
theorem Yields.split {s : LexerState} {xs ys : List Piece} {last : List Char}
    (h : Yields v s (xs ++ ys) last) : ∃ t, Yields v t ys last ∧
    s.rest = Piece.weave Token.chars xs [] ++ t.rest ∧
    t.offset = s.offset + byteLength (Piece.weave Token.chars xs []) ∧
    t.offset = (xs.getLast?.map fun x => x.token.stop).getD s.offset := by
  induction xs generalizing s with
  | nil => exact ⟨s, h, rfl, rfl, rfl⟩
  | cons x xs ih =>
      cases h with
      | token hskip hread hyields =>
          rename_i gap rest c l
          obtain ⟨t, ht, hrest, hoffset, hlast⟩ := ih hyields
          have hread' := (Lexeme.reads_of_read hread).1
          have hstop := (l.token (s.offset + byteLength gap)).stop_eq
          refine ⟨t, ht, ?_, ?_, ?_⟩
          · rw [← Trivia.append_of_skip hskip, ← hread', Piece.weave, Lexeme.token_chars]
            simp only [List.append_assoc]
            exact congrArg _ (congrArg _ hrest)
          · rw [hoffset, Piece.weave]
            show (l.token (s.offset + byteLength gap)).stop + _ = _
            rw [hstop]
            simp only [byteLength_append, Lexeme.token_start]
            omega
          · rw [hlast]
            cases xs with
            | nil => rfl
            | cons y xs =>
                rw [List.getLast?_cons_cons]
                rfl

/-- A token begins behind the one before it and its gap. -/
theorem Yields.start_eq {s : LexerState} {front back : List Piece} {p q : Piece} {last : List Char}
    (h : Yields v s (front ++ p :: q :: back) last) :
    q.token.start = p.token.stop + byteLength q.gap := by
  obtain ⟨t, ht, _⟩ := h.split
  exact ht.placed.2.1

/-- The last token and what is behind it end where the text ends. -/
theorem Yields.stop_add {s : LexerState} {pieces : List Piece} {p : Piece} {last : List Char}
    (h : Yields v s (pieces ++ [p]) last) :
    p.token.stop + byteLength last = s.offset + byteLength s.rest := by
  obtain ⟨t, ht, hrest, hoffset, _⟩ := h.split
  have hstart : p.token.start = t.offset + byteLength p.gap := ht.placed.1
  have hweave : p.gap ++ (p.token.chars ++ last) = t.rest := ht.weave_eq
  rw [hrest, ← hweave, Token.stop_eq, hstart, hoffset]
  simp only [byteLength_append]
  omega

/-- The first state is behind the line that is no part of the program. -/
theorem initial_eq (text : List Char) : ∃ line, (initial text).offset = byteLength line ∧
    text = line ++ (initial text).rest ∧ Trivia.IsFirstLine line (initial text).rest := by
  obtain ⟨htext, hline⟩ := Trivia.skipShebang_eq_iff.mp (rfl : Trivia.skipShebang text = (_, _))
  exact ⟨(Trivia.skipShebang text).1, rfl, htext, hline⟩

end LexerState

/-- A text splits into tokens exactly when its initial state yields pieces. -/
theorem tokenize_eq_ok_iff {v : Vocabulary} {text : String} {tokens : List Token} :
    tokenize v text = .ok tokens ↔ ∃ pieces last,
      LexerState.Yields v (LexerState.initial text.toList) pieces last ∧
      tokens = pieces.map Piece.token := by
  have hrun : tokenize v text = .ok tokens ↔
      (LexerState.initial text.toList).run v = .ok tokens := by
    rw [tokenize]
    cases (LexerState.initial text.toList).run v with
    | ok found => simp
    | error e => simp
  rw [hrun, LexerState.run_eq_ok_iff]
  simp [LexerState.initial, Context.initial]

end Respell
