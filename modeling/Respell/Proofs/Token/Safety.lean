import Respell.Proofs.Token.Checked.Lexeme
import Respell.Proofs.Token.Checked.State
import Respell.Proofs.Token.Diagnosis

/-!
# The lexer is safe

No check of the checked lexer fails, whatever the text, and it finds what `tokenize` finds. One turn
of its loop does what `LexerState.next` does, which is `leads_turn`, and the loop is then the run.
`checked_tokenize_eq_some` adds what this means for the states that a run reaches.
-/

namespace Respell

open Text

namespace Checked

variable {v : Vocabulary} {text s : List Char} {n : Nat}

/-- One turn over a token leads to what the run finds. -/
theorem leads_turn (v : Vocabulary) {x : State} (hx : x.Sound) (h : behind? n text = some s) :
    Leads text State.Sound (fun x n s => LexerState.run v ⟨x.context, n, s⟩) n
      (LexerState.run v ⟨x.context, n, s⟩) (turn v text x n) := by
  rw [LexerState.run_eq, LexerState.next]
  simp only [turn, skipTrivia_eq h, skipped, Option.bind_eq_bind, Option.bind_some]
  cases hskip : Trivia.skip s with
  | error gap => exact .done
  | ok result =>
      obtain ⟨gap, rest⟩ := result
      have hrest : behind? (n + byteLength gap) text = some rest := by
        rw [← Trivia.append_of_skip hskip] at h
        exact behind?_add h
      simp only [hrest, Option.bind_some]
      cases rest with
      | nil =>
          have htokens : x.context.before.reverse = x.tokens := List.reverse_reverse _
          dsimp only
          rw [htokens]
          exact .done
      | cons c rest =>
          simp only [lexeme_eq hrest, Option.bind_some]
          cases hread : Lexeme.read v x.context c rest with
          | error e => exact .done
          | ok l =>
              obtain ⟨happend, hne⟩ := Lexeme.reads_of_read hread
              rw [← happend] at hrest
              obtain ⟨y, hy, hsound, hcontext⟩ :=
                State.exists_push v hx (l.token (n + byteLength gap))
              have hpush : x.push v ⟨l.kind, String.ofList l.text, n + byteLength gap⟩ = some y := hy
              simp only [lexed, between?_eq hrest, hpush, Option.bind_some]
              have hpos := byteLength_pos hne
              refine .again (by omega) (behind?_add hrest) hsound ?_
              rw [hcontext, LexerState.accept, ← Lexeme.token, Token.stop_eq, Lexeme.token_start,
                Lexeme.token_chars]

/-- The first line is skipped that is no part of the program. -/
theorem exists_skipShebang (text : List Char) : ∃ n, skipShebang text = some n ∧
    behind? n text = some (LexerState.initial text).rest ∧
    LexerState.initial text = ⟨State.initial.context, n, (LexerState.initial text).rest⟩ := by
  have hall := behind?_zero text
  simp only [skipShebang, hall, Option.bind_eq_bind, Option.bind_some]
  rw [LexerState.initial, Trivia.skipShebang]
  split
  · rw [eatWhile_eq _ hall, Nat.zero_add]
    refine ⟨_, rfl, ?_, rfl⟩
    rw [← List.takeWhile_append_dropWhile (p := (!Literal.isLineEnd ·)) (l := text)] at hall
    simpa using behind?_add hall
  · exact ⟨0, rfl, hall, rfl⟩

/-- The checked lexer finds what the lexer finds. -/
theorem tokenize_eq (v : Vocabulary) (text : String) :
    tokenize v text.toList = some (Respell.tokenize v text) := by
  obtain ⟨n, hn, hrest, hinitial⟩ := exists_skipShebang text.toList
  have hloop := loop_eq State.Sound _ (fun _ _ _ hx h => leads_turn v hx h) State.initial
    (fun _ hi => nomatch hi) hrest
  rw [← hinitial] at hloop
  simp only [tokenize, hn, hloop, Option.bind_eq_bind, Option.bind_some]
  rw [Respell.tokenize]
  cases hrun : (LexerState.initial text.toList).run v with
  | ok tokens => rfl
  | error e =>
      obtain ⟨before, after, htext, hoffset⟩ := LexerState.Reaches.initial.fault_of_run hrun
      have hposition : Position.ofOffset? text.toList e.2 =
          some (Position.ofOffset text.toList e.2) := by
        rw [htext, hoffset]
        exact Position.ofOffset?_eq before after
      simp only [hposition, Option.bind_some]
      rfl

end Checked

namespace LexerState

variable {v : Vocabulary} {text : List Char} {s : LexerState}

/-- The places at which the parentheses stand that the context remembers. -/
def places (s : LexerState) : List Nat :=
  s.context.parens.map List.length ++ (s.context.group.map List.length).toList

/-- Every place that the context remembers is one of a token, which is an opening parenthesis. -/
theorem Reaches.punctuatorAt_of_mem_places (h : Reaches v text s) :
    ∀ i ∈ s.places, i < s.tokens.length ∧ punctuatorAt "(" s.tokens i = true := by
  intro i hi
  rw [places, h.context_eq, Context.ofTokens_eq_recompute, Context.length_parens_recompute,
    Context.length_group_recompute, List.mem_append, Option.mem_toList] at hi
  rcases hi with hopen | hgroup
  · obtain ⟨hlt, hopens, _⟩ := mem_unmatched_iff.mp hopen
    exact ⟨hlt, hopens⟩
  · obtain ⟨j, hj, hpartner⟩ := Option.bind_eq_some_iff.mp hgroup
    obtain ⟨hlt, hopens⟩ := punctuatorAt_of_partner hpartner
    exact ⟨Nat.lt_trans hlt (any_of_latestPlace hj).1, hopens⟩

end LexerState

/-- Where the first characters make the lexer read a numeral, there is one. -/
theorem Lexeme.exists_read_of_numeral {v : Vocabulary} {ctx : Context} {c : Char} {rest : List Char}
    (h : form v ctx c rest.head? = .numeral) : ∃ l, read v ctx c rest = .ok l := by
  obtain ⟨⟨t, after⟩, ht⟩ :=
    Option.ne_none_iff_exists'.mp (Numeral.numeral_ne_none (begins_of_form h))
  exact ⟨⟨.numeric, t, after⟩, by rw [read_eq_readForm, h, readForm, ofMatcher, ht]⟩

/-- The lexer never cuts inside a character or behind the end of the text, never looks at a place
that has no token, never goes round in a loop without coming further, and never fails to find a
numeral that it looks for: the checked lexer, which has no result when any of this happens, finds
what `tokenize` finds. So every state that the reading of a text reaches is at a boundary between
characters, and so is the fault that it comes to; the next state is at a further boundary; the places
that the state remembers are those of opening parentheses; and where a numeral begins one is read. -/
theorem checked_tokenize_eq_some (v : Vocabulary) (text : String) :
    Checked.tokenize v text.toList = some (tokenize v text) ∧
    ∀ s, LexerState.Reaches v text.toList s →
      (∃ before, text.toList = before ++ s.rest ∧ s.offset = byteLength before) ∧
      (∀ fault offset, s.run v = .error (fault, offset) →
        ∃ before after, text.toList = before ++ after ∧ offset = byteLength before) ∧
      (∀ t, s.next v = .ok (some t) → s.offset < t.offset) ∧
      (∀ i ∈ s.places, i < s.tokens.length ∧ punctuatorAt "(" s.tokens i = true) ∧
      ∀ c rest, Lexeme.form v s.context c rest.head? = .numeral →
        ∃ l, Lexeme.read v s.context c rest = .ok l := by
  refine ⟨Checked.tokenize_eq v text, fun s hs => ⟨hs.text_eq, ?_, ?_, ?_, ?_⟩⟩
  · exact fun _ _ hrun => hs.fault_of_run hrun
  · exact fun _ hnext => LexerState.offset_lt_of_next hnext
  · exact hs.punctuatorAt_of_mem_places
  · exact fun _ _ hform => Lexeme.exists_read_of_numeral hform

/-- Behind a closing brace that closes nothing stands an escape whose fourth byte is inside a
character. The place of the group before it is still remembered. -/
theorem checked_tokenize_broken_escape :
    let v : Vocabulary := ⟨"plain", ⟨[("if", "if")], List.pairwise_singleton _ _⟩,
      List.pairwise_singleton _ _⟩
    let text := "(π)\x7d\\u00aπ"
    let tokens : List Token := [⟨.punctuator, "(", 0⟩, ⟨.identifier, "π", 1⟩,
      ⟨.punctuator, ")", 3⟩, ⟨.punctuator, closeBrace, 4⟩]
    let s : LexerState := ⟨Context.ofTokens v tokens, 5, "\\u00aπ".toList⟩
    Checked.tokenize v text.toList = some (.error ⟨.invalidEscape, 5, ⟨1, 5⟩⟩) ∧
      LexerState.Reaches v text.toList s ∧ s.places = [0] ∧
      ∀ i ∈ s.places, i < s.tokens.length ∧ punctuatorAt "(" s.tokens i = true := by
  intro v text tokens s
  let before (n : Nat) (offset : Nat) : LexerState :=
    ⟨Context.ofTokens v (tokens.take n), offset, text.toList.drop n⟩
  have hchain : List.IsChain (fun s t => s.next v = .ok (some t))
      (LexerState.initial text.toList :: [before 1 1, before 2 3, before 3 4, s]) := by
    decide +kernel
  have h : LexerState.Reaches v text.toList s :=
    LexerState.Reaches.initial.of_isChain hchain s (List.mem_of_getLast? rfl)
  obtain ⟨hchecked, hstates⟩ := checked_tokenize_eq_some v text
  obtain ⟨_, _, _, hplaces, _⟩ := hstates s h
  refine ⟨?_, h, by decide +kernel, hplaces⟩
  rw [hchecked]
  decide +kernel

end Respell
