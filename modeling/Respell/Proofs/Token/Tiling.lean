import Mathlib.Tactic.Common
import Respell.Proofs.Token.Reading

/-!
# Tokens tile their text

The tokens of a text and the gaps between them are together the text, and a gap holds blanks and
comments only, apart from a first line that begins with a hash and an exclamation mark. `Tiled`
states this for a text and a list of tokens, and `tiled_of_tokenize` of the tokens that are found in
a text. Between two pieces the run is in a state that yields the second part, which is
`Yields.behind`, and what such a state goes on with is a gap, which is `Yields.isGap`.
-/

namespace Respell

open Text

/-- The byte offset behind the last of the tokens. -/
def stopOf (tokens : List Token) : Nat := (tokens.getLast?.map Token.stop).getD 0

/-- The byte offset of the first of the tokens, or of the end of the text when there is none. -/
def startOf (text : List Char) (tokens : List Token) : Nat :=
  (tokens.head?.map Token.start).getD (byteLength text)

/-- The tokens of a text: none is empty, each has the characters of its range, they are in order,
and between two of them, before the first and behind the last there is a gap. -/
structure Tiled (text : List Char) (tokens : List Token) : Prop where
  nonempty : ∀ t ∈ tokens, t.chars ≠ []
  located : ∀ t ∈ tokens, ∃ before after, text = before ++ (t.chars ++ after) ∧
    t.start = byteLength before ∧ t.stop = byteLength (before ++ t.chars)
  ordered : tokens.Pairwise fun t u => t.stop ≤ u.start
  gaps : ∀ front back, tokens = front ++ back → ∃ before gap after,
    text = before ++ (gap ++ after) ∧ stopOf front = byteLength before ∧
    startOf text back = byteLength (before ++ gap) ∧
    (front ≠ [] → Trivia.IsGap gap after) ∧
    (front = [] → ∃ line blanks, gap = line ++ blanks ∧ Trivia.IsFirstLine line (blanks ++ after) ∧
      Trivia.IsGap blanks after)

namespace Piece

/-- No token begins before the pieces, and each one begins behind those before it. -/
theorem Placed.pairwise {n : Nat} {pieces : List Piece} (h : Placed n pieces) :
    (∀ p ∈ pieces, n ≤ p.token.start) ∧
      (pieces.map token).Pairwise fun t u => t.stop ≤ u.start := by
  induction pieces generalizing n with
  | nil => exact ⟨List.forall_mem_nil _, .nil⟩
  | cons x pieces ih =>
      obtain ⟨hstart, hrest⟩ := h
      obtain ⟨hle, hpairwise⟩ := ih hrest
      have hstop := x.token.stop_eq
      refine ⟨fun p hp => ?_, List.pairwise_cons.mpr ⟨fun t ht => ?_, hpairwise⟩⟩
      · rcases List.mem_cons.mp hp with rfl | hp
        · omega
        · have := hle p hp
          omega
      · obtain ⟨p, hp, rfl⟩ := List.mem_map.mp ht
        exact hle p hp

end Piece

namespace LexerState

variable {v : Vocabulary} {s : LexerState} {pieces : List Piece} {last : List Char}

/-- No token is empty. -/
theorem Yields.chars_ne_nil (h : Yields v s pieces last) : ∀ p ∈ pieces, p.token.chars ≠ [] := by
  induction h with
  | done => exact List.forall_mem_nil _
  | token hskip hread _ ih =>
      intro p hp
      rcases List.mem_cons.mp hp with rfl | hp
      · rw [Lexeme.token_chars]
        exact (Lexeme.reads_of_read hread).2
      · exact ih p hp

/-- A state that has come to the end of `before` goes on with a gap, up to the first token or to the
end of the text. -/
theorem Yields.isGap {before : List Char} (h : Yields v s pieces last)
    (hoffset : s.offset = byteLength before) : ∃ gap after, s.rest = gap ++ after ∧
    Trivia.IsGap gap after ∧
    startOf (before ++ s.rest) (pieces.map Piece.token) = byteLength (before ++ gap) := by
  cases h with
  | done hskip =>
      obtain ⟨hrest, hgap, _⟩ := Trivia.skip_eq_ok_iff.mp hskip
      refine ⟨last, [], hrest, hgap, ?_⟩
      rw [hrest, List.append_nil]
      rfl
  | @token _ gap _ _ _ l _ hskip hread =>
      obtain ⟨hrest, hgap, _⟩ := Trivia.skip_eq_ok_iff.mp hskip
      refine ⟨_, _, hrest, hgap, ?_⟩
      show s.offset + byteLength gap = _
      rw [hoffset, byteLength_append]

/-- Between two pieces the run is in a state that has come to the end of the first part. -/
theorem Yields.behind {front back : List Piece} {line : List Char}
    (h : Yields v s (front ++ back) last) (hoffset : s.offset = byteLength line) :
    ∃ before t, Yields v t back last ∧ line ++ s.rest = before ++ t.rest ∧
      t.offset = byteLength before ∧ (front ≠ [] → stopOf (front.map Piece.token) = t.offset) := by
  obtain ⟨t, ht, hrest, htoffset, hlast⟩ := h.split
  refine ⟨line ++ Piece.weave Token.chars front [], t, ht, ?_, ?_, fun hne => ?_⟩
  · rw [hrest, List.append_assoc]
  · rw [htoffset, hoffset, byteLength_append]
  · rw [hlast, stopOf, List.getLast?_map, List.getLast?_eq_some_getLast hne]
    rfl

/-- Every token has the characters of its range. -/
theorem Yields.located {line : List Char} {p : Piece} (h : Yields v s pieces last)
    (hoffset : s.offset = byteLength line) (hp : p ∈ pieces) :
    ∃ before after, line ++ s.rest = before ++ (p.token.chars ++ after) ∧
      p.token.start = byteLength before ∧ p.token.stop = byteLength (before ++ p.token.chars) := by
  obtain ⟨front, back, rfl⟩ := List.append_of_mem hp
  obtain ⟨before, t, ht, htext, htoffset, _⟩ := h.behind hoffset
  have hweave := ht.weave_eq
  have hstart := ht.placed.1
  rw [Piece.weave] at hweave
  refine ⟨before ++ p.gap, Piece.weave Token.chars back last, ?_, ?_, ?_⟩
  · rw [htext, ← hweave, List.append_assoc]
  · rw [hstart, htoffset, byteLength_append]
  · rw [Token.stop_eq, hstart, htoffset]
    simp only [byteLength_append]

end LexerState

/-- The tokens of a text tile it. -/
theorem tiled_of_tokenize {v : Vocabulary} {text : String} {tokens : List Token}
    (h : tokenize v text = .ok tokens) : Tiled text.toList tokens := by
  obtain ⟨pieces, last, hyields, rfl⟩ := tokenize_eq_ok_iff.mp h
  obtain ⟨line, hoffset, htext, hline⟩ := LexerState.initial_eq text.toList
  refine ⟨?_, ?_, hyields.placed.pairwise.2, ?_⟩
  · intro t ht
    obtain ⟨x, hx, rfl⟩ := List.mem_map.mp ht
    exact hyields.chars_ne_nil x hx
  · intro t ht
    obtain ⟨x, hx, rfl⟩ := List.mem_map.mp ht
    rw [htext]
    exact hyields.located hoffset hx
  · intro front back htokens
    obtain ⟨xs, ys, rfl, rfl, rfl⟩ := List.map_eq_append_iff.mp htokens
    cases xs with
    | nil =>
        -- The first gap begins with the text, and the first line belongs to it.
        obtain ⟨gap, after, hrest, hgap, hstart⟩ := hyields.isGap hoffset
        rw [← htext, byteLength_append] at hstart
        rw [hrest] at htext hline
        refine ⟨[], line ++ gap, after, ?_, rfl, ?_, fun hnil => absurd rfl hnil,
          fun _ => ⟨line, gap, rfl, hline, hgap⟩⟩
        · rw [htext, List.nil_append, List.append_assoc]
        · rw [List.nil_append, byteLength_append]
          exact hstart
    | cons x xs =>
        obtain ⟨before, s, hs, hbefore, hsoffset, hstop⟩ := hyields.behind hoffset
        obtain ⟨gap, after, hrest, hgap, hstart⟩ := hs.isGap hsoffset
        rw [← hbefore, ← htext] at hstart
        rw [← htext, hrest] at hbefore
        refine ⟨before, gap, after, hbefore, ?_, hstart, fun _ => hgap,
          fun hnil => absurd hnil (List.cons_ne_nil _ _)⟩
        rw [hstop (List.cons_ne_nil _ _), hsoffset]

/-- A first line, a block comment that ends early and a comment at the end are the gaps here. -/
theorem tiled_first_line_and_comments :
    let v : Vocabulary := ⟨"plain", ⟨[("if", "if")], List.pairwise_singleton _ _⟩,
      List.pairwise_singleton _ _⟩
    let text := "#!π\n if/**/*é // end"
    let tokens : List Token := [⟨.keyword, "if", 6⟩, ⟨.punctuator, "*", 12⟩, ⟨.identifier, "é", 13⟩]
    tokenize v text = .ok tokens ∧ Tiled text.toList tokens := by
  intro v text tokens
  have h : tokenize v text = .ok tokens := by decide +kernel
  exact ⟨h, tiled_of_tokenize h⟩

end Respell
