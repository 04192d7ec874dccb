import Respell.Proofs.Respelling.Progress
import Respell.Proofs.Text.Offset

/-!
# Respelling in parts

A respelling can be stopped between any two tokens and taken up again with the text and the drift
that it had there. `Progress.Meets` is what every token finds when its turn comes, whether it is
replaced or not: it stands in the text as it has become at its own places moved by the drift, and
behind it nothing has changed. `Before.resume` carries the invariant of the replacements up to that
token, and `replaceTokens_parts` puts two parts of a respelling together.
-/

namespace Respell

open Text

namespace Respelling

namespace Progress

/-- The progress with `earlier` replacements before its own. -/
def behind (p : Progress) (earlier : List Replacement) : Progress :=
  { p with replacements := p.replacements ++ earlier }

/-- A step adds to the replacements and asks nothing of them. -/
theorem step_behind (p : Progress) (earlier : List Replacement) (t : Token) :
    (p.behind earlier).step t = (p.step t).map fun q => q.behind earlier := by
  rw [step, step]
  show (if p.respelling.isTarget t then _ else _) = _
  cases p.respelling.isTarget t with
  | false => rfl
  | true =>
      show (p.respelling.respell t.text >>= fun _ => p.respelling.advance t.text >>= _) = _
      cases p.respelling.respell t.text with
      | error e => rfl
      | ok spelling =>
          cases p.respelling.advance t.text with
          | error e => rfl
          | ok next => rfl

/-- So does a run. -/
theorem foldlM_behind (p : Progress) (earlier : List Replacement) (tokens : List Token) :
    tokens.foldlM step (p.behind earlier) =
      (tokens.foldlM step p).map fun q => q.behind earlier := by
  induction tokens generalizing p with
  | nil => rfl
  | cons t tokens ih =>
      rw [List.foldlM_cons, List.foldlM_cons, step_behind]
      cases p.step t with
      | error e => rfl
      | ok q => exact ih q

/-- What a token of `text` finds when its turn comes. Its places in the text as it has become are
its offsets moved by the drift, neither before the beginning of that text nor behind its end; there
the token stands, and behind it what stands behind it in `text`; and its range can be replaced. -/
structure Meets (p : Progress) (text : List Char) (t : Token) : Prop where
  start : (p.respelling.place t.start : Int) = t.start + p.respelling.drift
  stop : (p.respelling.place t.stop : Int) = t.stop + p.respelling.drift
  inside : p.respelling.place t.stop ≤ byteLength p.text
  spelled : between? (p.respelling.place t.start) (p.respelling.place t.stop) p.text = some t.chars
  unchanged : ∃ after, behind? t.stop text = some after ∧
    behind? (p.respelling.place t.stop) p.text = some after
  replaceable : ∀ new,
    replaceBytes? (p.respelling.place t.start) (p.respelling.place t.stop) new p.text =
      some (replaceBytes (p.respelling.place t.start) (p.respelling.place t.stop) new p.text)

variable {v w : Vocabulary} {p q : Progress} {finished last given text : List Char} {start : Nat}
  {x : Piece} {pieces front back : List Piece}

/-- Behind what is finished every token is met. -/
theorem Before.meets (h : Before v w p finished start (x :: pieces) last)
    (htext : text = given ++ Piece.weave Token.chars (x :: pieces) last)
    (hstart : start = byteLength given) : p.Meets text x.token := by
  obtain ⟨hplace, hplaceStop⟩ := h.place_eq
  have hdrift := h.drift
  have htokenStart := h.placed.1
  have htokenStop := x.token.stop_eq
  have hp : p.text = (finished ++ x.gap) ++
      (x.token.chars ++ Piece.weave Token.chars pieces last) := by
    rw [h.text, Piece.weave, List.append_assoc]
  have ht : text = (given ++ x.gap ++ x.token.chars) ++ Piece.weave Token.chars pieces last := by
    rw [htext, Piece.weave]
    simp only [List.append_assoc]
  have hbehind : behind? (p.respelling.place x.token.stop) p.text =
      some (Piece.weave Token.chars pieces last) := by
    refine behind?_eq_some_iff.mpr ⟨finished ++ x.gap ++ x.token.chars, ?_, hplaceStop⟩
    rw [hp, ← List.append_assoc]
  refine ⟨?_, ?_, ?_, ?_, ⟨Piece.weave Token.chars pieces last, ?_, hbehind⟩, fun new => ?_⟩
  · rw [hplace, byteLength_append]
    omega
  · rw [hplaceStop, byteLength_append, byteLength_append]
    omega
  · exact Nat.le.intro (add_of_behind? hbehind)
  · rw [hplace, hplaceStop, hp, byteLength_append _ x.token.chars]
    exact between?_eq (behind?_eq_some_iff.mpr ⟨_, rfl, rfl⟩)
  · refine behind?_eq_some_iff.mpr ⟨_, ht, ?_⟩
    rw [byteLength_append, byteLength_append]
    omega
  · rw [hplace, hplaceStop, hp, replaceBytes?_append, replaceBytes_append]

/-- After the tokens of a first part the invariant holds of the part that is left. -/
theorem Before.resume (h : Before v w p finished start (front ++ back) last)
    (hrun : (front.map Piece.token).foldlM Progress.step p = .ok q) :
    ∃ finished' start', Before v w q finished' start' back last ∧
      start' = start + byteLength (Piece.weave Token.chars front []) := by
  induction front generalizing p finished start with
  | nil =>
      cases hrun
      exact ⟨finished, start, h, rfl⟩
  | cons x front ih =>
      rw [List.map_cons, List.foldlM_cons] at hrun
      cases hstep : p.step x.token with
      | error e =>
          rw [hstep] at hrun
          cases hrun
      | ok m =>
          rw [hstep] at hrun
          obtain ⟨finished', start', hbefore, hstart⟩ := ih (h.step hstep).1 hrun
          refine ⟨finished', start', hbefore, ?_⟩
          rw [hstart, x.token.stop_eq, h.placed.1, Piece.weave, byteLength_append,
            byteLength_append]
          omega

end Progress

/-- The replacements of two parts one after the other: the second part goes on with the text and the
drift that the first one ends with, and its replacements come behind. -/
theorem replaceTokens_append (r : Respelling) (text : List Char) (front back : List Token) :
    r.replaceTokens text (front ++ back) = (do
      let p ← r.replaceTokens text front
      let q ← p.respelling.replaceTokens p.text back
      return q.behind p.replacements) := by
  rw [replaceTokens, List.foldlM_append]
  show (r.replaceTokens text front >>= fun p => back.foldlM Progress.step p) = _
  cases r.replaceTokens text front with
  | error e => rfl
  | ok p =>
      show back.foldlM Progress.step p = _
      exact Progress.foldlM_behind ⟨p.respelling, p.text, []⟩ p.replacements back

/-- When both parts together succeed, each of them does, and they end alike. -/
theorem exists_of_replaceTokens_append {r : Respelling} {text : List Char}
    {front back : List Token} {q : Progress} (h : r.replaceTokens text (front ++ back) = .ok q) :
    ∃ p q', r.replaceTokens text front = .ok p ∧
      p.respelling.replaceTokens p.text back = .ok q' ∧ q = q'.behind p.replacements := by
  rw [replaceTokens_append] at h
  cases hfront : r.replaceTokens text front with
  | error e =>
      rw [hfront] at h
      cases h
  | ok p =>
      rw [hfront] at h
      cases hback : p.respelling.replaceTokens p.text back with
      | error e =>
          simp only [bind, Except.bind, hback] at h
          cases h
      | ok q' =>
          simp only [bind, Except.bind, hback] at h
          cases h
          exact ⟨p, q', rfl, hback, rfl⟩

/-- A token of a text is met after the replacements of the tokens before it. -/
theorem meets_of_replaceTokens {d : Dictionary} {source destination text : String} {r : Respelling}
    {front back : List Token} {t : Token} {p : Progress}
    (hbegin : begin d source destination = .ok r)
    (htokens : tokenize r.source text = .ok (front ++ t :: back))
    (hfront : r.replaceTokens text.toList front = .ok p) : p.Meets text.toList t := by
  obtain ⟨v, w, hv, hw, rfl⟩ := begin_eq_ok_iff.mp hbegin
  obtain ⟨pieces, last, hyields, hpieces⟩ := tokenize_eq_ok_iff.mp htokens
  obtain ⟨xs, ys, rfl, rfl, hys⟩ := List.map_eq_append_iff.mp hpieces.symm
  obtain ⟨y, ys, rfl, rfl, rfl⟩ := List.map_eq_cons_iff.mp hys
  obtain ⟨line, hoffset, htext, _⟩ := LexerState.initial_eq text.toList
  -- The invariant before the first token holds also where the tokens of `front` end.
  obtain ⟨finished, start, hbefore, hstart⟩ :=
    (Dictionary.before_first hv hw hyields hoffset htext).resume hfront
  obtain ⟨s, hs, hrest, _⟩ := hyields.split
  have hgiven : text.toList = (line ++ Piece.weave Token.chars xs []) ++
      Piece.weave Token.chars (y :: ys) last := by
    rw [hs.weave_eq, List.append_assoc, ← hrest]
    exact htext
  exact hbefore.meets hgiven (by rw [hstart, byteLength_append])

end Respelling

/-- A respelling of a text that succeeds can be stopped between any two tokens. The token whose turn
it is then stands in the text as it has become at its places, with everything behind it as it was;
and the same respelling, going on with the tokens that are left in the text as it has become, ends
with the same text and the same drift as in one run. -/
theorem replaceTokens_parts {d : Dictionary} {source destination text : String} {r : Respelling}
    {front back : List Token} {q : Respelling.Progress}
    (hbegin : Respelling.begin d source destination = .ok r)
    (htokens : tokenize r.source text = .ok (front ++ back))
    (hwhole : r.replaceTokens text.toList (front ++ back) = .ok q) :
    ∃ p q', r.replaceTokens text.toList front = .ok p ∧
      (∀ t ∈ back.head?, p.Meets text.toList t) ∧
      p.respelling.replaceTokens p.text back = .ok q' ∧
      q'.text = q.text ∧ q'.respelling.drift = q.respelling.drift ∧
      q.replacements.reverse = p.replacements.reverse ++ q'.replacements.reverse := by
  obtain ⟨p, q', hfront, hback, rfl⟩ := Respelling.exists_of_replaceTokens_append hwhole
  refine ⟨p, q', hfront, fun t ht => ?_, hback, rfl, rfl, List.reverse_append⟩
  cases back with
  | nil => cases ht
  | cons u back =>
      cases ht
      exact Respelling.meets_of_replaceTokens hbegin htokens hfront

/-- The first keyword grows and the others shrink, so that the drift is negative where the
respelling is stopped. -/
theorem replaceTokens_parts_shrunk :
    let text := "if(é)return x;else\x7breturn\x7d"
    let front : List Token := [⟨.keyword, "if", 0⟩, ⟨.punctuator, "(", 2⟩, ⟨.identifier, "é", 3⟩,
      ⟨.punctuator, ")", 5⟩, ⟨.keyword, "return", 6⟩, ⟨.identifier, "x", 13⟩,
      ⟨.punctuator, ";", 14⟩, ⟨.keyword, "else", 15⟩]
    let back : List Token :=
      [⟨.punctuator, "\x7b", 19⟩, ⟨.keyword, "return", 20⟩, ⟨.punctuator, "\x7d", 26⟩]
    ∃ d r p q q', Respelling.begin d "plain" "greek" = .ok r ∧
      tokenize r.source text = .ok (front ++ back) ∧
      r.replaceTokens text.toList (front ++ back) = .ok q ∧
      r.replaceTokens text.toList front = .ok p ∧
      p.Meets text.toList ⟨.punctuator, "\x7b", 19⟩ ∧
      p.respelling.replaceTokens p.text back = .ok q' ∧ q'.text = q.text ∧
      String.ofList q.text = "ανν(é)ε x;e\x7bε\x7d" ∧ q'.respelling.drift = -7 := by
  intro text front back
  let plain : Vocabulary :=
    ⟨"plain", ⟨[("else", "else"), ("if", "if"), ("return", "return")], by decide⟩, by decide⟩
  let greek : Vocabulary :=
    ⟨"greek", ⟨[("else", "e"), ("if", "ανν"), ("return", "ε")], by decide⟩, by decide⟩
  let d := (Dictionary.empty.insert plain).insert greek
  let out : Respelled := ⟨"ανν(é)ε x;e\x7bε\x7d",
    [⟨"if", "ανν", 0, 2, 0⟩, ⟨"return", "ε", 10, 16, 4⟩, ⟨"else", "e", 15, 19, 0⟩,
      ⟨"return", "ε", 17, 23, -3⟩], 11, -7⟩
  have h : d.respellText "plain" "greek" text = .ok out := by decide +kernel
  have hplain : d.get "plain" = .ok plain := by decide +kernel
  have hgreek : d.get "greek" = .ok greek := by decide +kernel
  have htokens : tokenize plain text = .ok (front ++ back) := by decide +kernel
  obtain ⟨v, w, tokens, q, hv, hw, htokens', hq, hout⟩ := Dictionary.respellText_eq_ok_iff.mp h
  cases hplain.symm.trans hv
  cases hgreek.symm.trans hw
  cases htokens.symm.trans htokens'
  have hbegin : Respelling.begin d "plain" "greek" = .ok ⟨d, plain, greek, 0⟩ :=
    Respelling.begin_eq_ok_iff.mpr ⟨plain, greek, hplain, hgreek, rfl⟩
  obtain ⟨p, q', hfront, hmeets, hback, htext, hdrift, _⟩ :=
    replaceTokens_parts hbegin htokens hq
  refine ⟨d, ⟨d, plain, greek, 0⟩, p, q, q', hbegin, htokens, hq, hfront, hmeets _ rfl, hback,
    htext, (congrArg Respelled.text hout).symm, ?_⟩
  rw [hdrift]
  exact (congrArg Respelled.drift hout).symm

end Respell
