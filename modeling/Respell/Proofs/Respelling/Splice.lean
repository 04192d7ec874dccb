import Mathlib.Tactic.Common
import Respell.Proofs.Respelling.Progress

/-!
# Respelling as splicing

What a respelling writes can be said without places in a changing text: the gaps between the tokens
as they were, and between them the tokens, of which the keywords are written in their new spelling.
`splice` cuts a text at the ranges of its tokens and puts other texts in their place, and
`respellText_eq_splice` states that this is what comes out.
-/

namespace Respell

open Text

/-- The text from the byte offset `start` on, cut at the ranges of the tokens and with what `f`
writes in the place of each. -/
def splice (f : Token → List Char) (text : List Char) : Nat → List Token → List Char
  | start, [] => (splitBytes start text).2
  | start, t :: tokens =>
    slice start t.start text ++ (f t ++ splice f text t.stop tokens)

/-- Where the tokens of some pieces stand in a text, the gaps between them are those of the pieces.
The part `lead` in front of the first piece is counted to the first gap. -/
theorem splice_eq_weave (f : Token → List Char) {pieces : List Piece} (last before lead : List Char)
    (hplaced : Piece.Placed (byteLength (before ++ lead)) pieces) :
    splice f (before ++ (lead ++ Piece.weave Token.chars pieces last)) (byteLength before)
      (pieces.map Piece.token) = lead ++ Piece.weave f pieces last := by
  induction pieces generalizing before lead with
  | nil =>
      rw [List.map_nil, splice, splitBytes_append]
      rfl
  | cons p pieces ih =>
      obtain ⟨hstart, hrest⟩ := hplaced
      -- The text up to the token, and up to its end.
      have hgap : p.token.start = byteLength (before ++ (lead ++ p.gap)) := by
        rw [hstart, ← byteLength_append, List.append_assoc]
      have hstop : p.token.stop = byteLength (before ++ (lead ++ p.gap) ++ p.token.chars) := by
        rw [Token.stop_eq, hgap, ← byteLength_append]
      have htext : before ++ (lead ++ Piece.weave Token.chars (p :: pieces) last) =
          before ++ (lead ++ p.gap ++ (p.token.chars ++ Piece.weave Token.chars pieces last)) := by
        simp only [Piece.weave, List.append_assoc]
      have hafter := ih (before ++ (lead ++ p.gap) ++ p.token.chars) [] (by
        rw [List.append_nil, ← hstop]
        exact hrest)
      rw [← hstop, List.append_assoc, List.append_assoc, List.nil_append, List.nil_append] at hafter
      rw [List.map_cons, splice, htext, hgap, slice_append, hafter, Piece.weave, List.append_assoc]

/-- Over a whole text, the line that is no part of the program is counted to the first gap. -/
theorem LexerState.Yields.splice_eq {v : Vocabulary} {text line last : List Char}
    {pieces : List Piece} (h : Yields v (.initial text) pieces last)
    (hoffset : (LexerState.initial text).offset = byteLength line)
    (htext : text = line ++ (LexerState.initial text).rest) (f : Token → List Char) :
    splice f text 0 (pieces.map Piece.token) = line ++ Piece.weave f pieces last := by
  have hplaced : Piece.Placed (byteLength ([] ++ line)) pieces := hoffset ▸ h.placed
  have hsplice := splice_eq_weave f last [] line hplaced
  rwa [h.weave_eq, ← htext, List.nil_append, byteLength_nil] at hsplice

/-- What comes out is spliced from the text and the new spellings of its tokens. -/
theorem Dictionary.splice_of_respellText {d : Dictionary} {source destination text : String}
    {v w : Vocabulary} {tokens : List Token} {out : Respelled} (hv : d.get source = .ok v)
    (hw : d.get destination = .ok w) (htokens : tokenize v text = .ok tokens)
    (h : d.respellText source destination text = .ok out) :
    out.text.toList = splice (Token.respelledChars v w) text.toList 0 tokens := by
  obtain ⟨pieces, last, hyields, rfl⟩ := tokenize_eq_ok_iff.mp htokens
  obtain ⟨line, hoffset, htext, _⟩ := LexerState.initial_eq text.toList
  rw [hyields.splice_eq hoffset htext]
  exact (toList_of_respellText hv hw hyields hoffset htext h).1

/-- A respelled text is the text itself, cut at the ranges of its tokens, with every keyword written
as the other vocabulary spells its canonical name; the drift at the end is by how much the text has
grown, and it is the sum of what the keywords have grown. -/
theorem respellText_eq_splice {d : Dictionary} {source destination text : String} {out : Respelled}
    (h : d.respellText source destination text = .ok out) :
    ∃ v w tokens, d.get source = .ok v ∧ d.get destination = .ok w ∧ tokenize v text = .ok tokens ∧
      splice Token.chars text.toList 0 tokens = text.toList ∧
      out.text.toList = splice (Token.respelledChars v w) text.toList 0 tokens ∧
      (∀ t ∈ tokens, t.kind = .keyword → t.HasCounterpart v w ∧
        d.growth t.text source destination = .ok (t.growth v w)) ∧
      out.drift = (out.text.utf8ByteSize : Int) - (text.utf8ByteSize : Int) ∧
      out.drift = totalGrowth v w tokens := by
  obtain ⟨v, w, tokens, q, hv, hw, htokens, hrun, hout⟩ := Dictionary.respellText_eq_ok_iff.mp h
  obtain ⟨pieces, last, hyields, rfl⟩ := tokenize_eq_ok_iff.mp htokens
  obtain ⟨line, hoffset, htext, _⟩ := LexerState.initial_eq text.toList
  obtain ⟨hchars, hdrift, hall⟩ :=
    Dictionary.toList_of_respellText hv hw hyields hoffset htext h
  have hweave : text.toList = line ++ Piece.weave Token.chars pieces last := by
    rw [hyields.weave_eq]
    exact htext
  have hsplice := Dictionary.splice_of_respellText hv hw htokens h
  refine ⟨v, w, _, hv, hw, htokens, ?_, hsplice, ?_, ?_, ?_⟩
  · rw [hyields.splice_eq hoffset htext, ← hweave]
  · intro t ht hkind
    obtain ⟨y, hy, rfl⟩ := List.mem_map.mp ht
    exact ⟨hall y hy hkind, Dictionary.growth_eq_ok hv hw hkind (hall y hy hkind)⟩
  · have hgrowth := Piece.byteLength_weave v w pieces last
    rw [← String.ofList_toList (s := out.text), ← String.ofList_toList (s := text),
      utf8ByteSize_ofList, utf8ByteSize_ofList, hchars, hweave, byteLength_append,
      byteLength_append, hdrift]
    push_cast
    omega
  · exact hdrift

/-- One keyword grows, another one shrinks, and their spellings have more bytes than characters. -/
theorem respellText_grow_and_shrink :
    let text := "if(é)/*if*/return 'if'"
    ∃ plain greek out, Vocabulary.ofPairs "plain" [("if", "if"), ("return", "return")] = .ok plain ∧
      Vocabulary.ofPairs "greek" [("if", "ανν"), ("return", "ε")] = .ok greek ∧
      ((Dictionary.empty.insert plain).insert greek).respellText "plain" "greek" text = .ok out ∧
      out.text = "ανν(é)/*if*/ε 'if'" ∧
      ∃ tokens, tokenize plain text = .ok tokens ∧
        out.text.toList = splice (Token.respelledChars plain greek) text.toList 0 tokens := by
  intro text
  let plain : Vocabulary :=
    ⟨"plain", ⟨[("if", "if"), ("return", "return")], by decide⟩, by decide⟩
  let greek : Vocabulary := ⟨"greek", ⟨[("if", "ανν"), ("return", "ε")], by decide⟩, by decide⟩
  let d := (Dictionary.empty.insert plain).insert greek
  let out : Respelled := ⟨"ανν(é)/*if*/ε 'if'",
    [⟨"if", "ανν", 0, 2, 0⟩, ⟨"return", "ε", 16, 22, 4⟩], 6, 0⟩
  have h : d.respellText "plain" "greek" text = .ok out := by decide +kernel
  have hplain : d.get "plain" = .ok plain := by decide +kernel
  have hgreek : d.get "greek" = .ok greek := by decide +kernel
  obtain ⟨v, w, tokens, hv, hw, htokens, _, hsplice, _⟩ := respellText_eq_splice h
  cases hplain.symm.trans hv
  cases hgreek.symm.trans hw
  exact ⟨plain, greek, out, by decide +kernel, by decide +kernel, h, rfl, tokens, htokens, hsplice⟩

end Respell
