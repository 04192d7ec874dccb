import Mathlib.Data.List.Chain
import Respell.Proofs.Text.Bytes
import Respell.Proofs.Token.Reading

/-!
# The states of a run

`Reaches v text s` states that the reading of a text under a vocabulary comes to the state `s`. What
every step keeps holds of all these states. The first such facts are the invariant of the run: the
offset of a state is that of a boundary between two characters, behind which the rest of the text
stands, and the context is that of the tokens so far.
-/

namespace Respell

open Text

namespace LexerState

/-- `Reaches v text s`: the state `s` is the first one of the text, or the next one of another state
that the reading reaches. -/
inductive Reaches (v : Vocabulary) (text : List Char) : LexerState → Prop where
  | initial : Reaches v text (initial text)
  | next {s t : LexerState} : Reaches v text s → s.next v = .ok (some t) → Reaches v text t

/-- The tokens that a state has, in their order. -/
def tokens (s : LexerState) : List Token := s.context.before.reverse

variable {v : Vocabulary} {text : List Char} {s t : LexerState}

/-- A next state has one more token. -/
theorem tokens_accept (s : LexerState) (start : Nat) (l : Lexeme) :
    (accept v s.context start l).tokens = s.tokens ++ [l.token start] := by
  simp [tokens, accept, Context.push, Lexeme.token]

/-- States that follow one another, the first one behind a state that is reached, are reached. -/
theorem Reaches.of_isChain {states : List LexerState} (hs : Reaches v text s)
    (h : List.IsChain (fun s t => s.next v = .ok (some t)) (s :: states)) :
    ∀ t ∈ states, Reaches v text t := by
  induction states generalizing s with
  | nil => exact fun _ ht => absurd ht List.not_mem_nil
  | cons u states ih =>
      obtain ⟨hnext, hchain⟩ := List.isChain_cons_cons.mp h
      have hu : Reaches v text u := .next hs hnext
      exact List.forall_mem_cons.mpr ⟨hu, ih hu hchain⟩

/-- The context of a state is that of its tokens. -/
theorem Reaches.context_eq (h : Reaches v text s) :
    s.context = Context.ofTokens v s.tokens := by
  induction h with
  | initial => rfl
  | next _ hnext ih =>
      obtain ⟨gap, c, rest, l, _, _, rfl⟩ := next_eq_some_iff.mp hnext
      rw [tokens_accept, Context.ofTokens, List.foldl_append, ← Context.ofTokens, ← ih]
      rfl

/-- The offset of a state is that of the boundary behind which its rest stands. -/
theorem Reaches.text_eq (h : Reaches v text s) :
    ∃ before, text = before ++ s.rest ∧ s.offset = byteLength before := by
  induction h with
  | initial =>
      obtain ⟨line, hoffset, htext, _⟩ := initial_eq text
      exact ⟨line, htext, hoffset⟩
  | next _ hnext ih =>
      obtain ⟨before, htext, hoffset⟩ := ih
      obtain ⟨gap, c, rest, l, hskip, hread, rfl⟩ := next_eq_some_iff.mp hnext
      refine ⟨before ++ (gap ++ l.text), ?_, ?_⟩
      · rw [htext, ← Trivia.append_of_skip hskip, ← (Lexeme.reads_of_read hread).1]
        simp [accept]
      · show (l.token _).stop = _
        rw [Token.stop_eq, Lexeme.token_chars, Lexeme.token_start, hoffset]
        simp only [byteLength_append]
        omega

/-- Between two pieces of what a reached state yields, the reading has come to a state with the
tokens of the first part. -/
theorem Yields.reaches {front back : List Piece} {last : List Char}
    (h : Yields v s (front ++ back) last) (hs : Reaches v text s) :
    ∃ t, Reaches v text t ∧ t.tokens = s.tokens ++ front.map Piece.token ∧ Yields v t back last := by
  induction front generalizing s with
  | nil => exact ⟨s, hs, by simp, h⟩
  | cons p front ih =>
      cases h with
      | token hskip hread hyields =>
          have hnext := hs.next (next_eq_some_iff.mpr ⟨_, _, _, _, hskip, hread, rfl⟩)
          obtain ⟨t, ht, htokens, hback⟩ := ih hyields hnext
          refine ⟨t, ht, ?_, hback⟩
          rw [htokens, tokens_accept, List.append_assoc]
          rfl

/-- A token moves the offset on. -/
theorem offset_lt_of_next (h : s.next v = .ok (some t)) : s.offset < t.offset := by
  obtain ⟨gap, c, rest, l, _, hread, rfl⟩ := next_eq_some_iff.mp h
  have hpos := byteLength_pos (Lexeme.reads_of_read hread).2
  show s.offset < (l.token (s.offset + byteLength gap)).stop
  rw [Token.stop_eq, Lexeme.token_start, Lexeme.token_chars]
  omega

end LexerState

section

variable {v : Vocabulary} {text : String} {front back : List Token} {t : Token}

/-- Between two tokens of a text the reading has come to a state with the tokens before. -/
theorem reaches_of_tokenize (h : tokenize v text = .ok (front ++ back)) :
    ∃ s pieces last, LexerState.Reaches v text.toList s ∧ s.tokens = front ∧
      LexerState.Yields v s pieces last ∧ pieces.map Piece.token = back := by
  obtain ⟨pieces, last, hyields, htokens⟩ := tokenize_eq_ok_iff.mp h
  obtain ⟨xs, ys, rfl, rfl, rfl⟩ := List.map_eq_append_iff.mp htokens.symm
  obtain ⟨s, hs, hstokens, hback⟩ := hyields.reaches .initial
  exact ⟨s, ys, last, hs, hstokens, hback, rfl⟩

/-- Every token of a text is read in the context of the tokens before it. -/
theorem exists_read_of_tokenize (h : tokenize v text = .ok (front ++ t :: back)) :
    ∃ c rest l start, Lexeme.read v (Context.ofTokens v front) c rest = .ok l ∧
      t = l.token start := by
  obtain ⟨s, pieces, last, hs, rfl, hyields, hback⟩ := reaches_of_tokenize h
  cases hyields with
  | done => cases hback
  | token hskip hread hyields =>
      obtain ⟨rfl, _⟩ := List.cons.inj hback
      rw [hs.context_eq] at hread
      exact ⟨_, _, _, _, hread, rfl⟩

end

end Respell
