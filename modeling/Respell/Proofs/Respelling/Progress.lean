import Respell.Proofs.Respelling.Spelling
import Respell.Proofs.Text.Bytes
import Respell.Respelling

/-!
# The replacements of a respelling

A respelling works in the text itself: it replaces one range of bytes after the other and carries
the ranges over by the drift so far. `Progress.Before` is what holds before each token: what is
finished stands in front of the rest of the text as it was given, and the drift is by how much it is
longer than what it came from. `Before.step` takes one token over, `Before.run` all of them, and
`toList_of_respellText` states what comes out for a whole text.
-/

namespace Respell

open Text

namespace Dictionary

variable {d : Dictionary} {source destination : String} {v w : Vocabulary}

/-- A word is respelled by way of its canonical name. -/
theorem respell_eq_ok_iff (hv : d.get source = .ok v) (hw : d.get destination = .ok w)
    {word spelling : String} : d.respell word source destination = .ok spelling ↔
      ∃ canonical, v.canonical? word = some canonical ∧ w.spelling? canonical = some spelling := by
  rw [← Option.bind_eq_some_iff, respell, hv, hw]
  simp only [bind, Except.bind]
  cases Option.bind (v.canonical? word) w.spelling? with
  | none => simp
  | some found => simp

/-- The growth of a keyword in the dictionary is that of its token. -/
theorem growth_eq_ok (hv : d.get source = .ok v) (hw : d.get destination = .ok w) {t : Token}
    (hkind : t.kind = .keyword) (h : t.HasCounterpart v w) :
    d.growth t.text source destination = .ok (t.growth v w) := by
  obtain ⟨canonical, spelling, hcanonical, hspelling⟩ := h
  rw [growth, (respell_eq_ok_iff hv hw).mpr ⟨canonical, hcanonical, hspelling⟩, Token.growth,
    Token.respelled_of_counterpart hkind hcanonical hspelling]
  rfl

end Dictionary

namespace Respelling

/-- The vocabularies are those that the dictionary has under their names. -/
def Ready (r : Respelling) : Prop :=
  r.dictionary.get r.source.name = .ok r.source ∧
    r.dictionary.get r.destination.name = .ok r.destination

/-- A respelling begins with the two vocabularies and without a drift. -/
theorem begin_eq_ok_iff {d : Dictionary} {source destination : String} {r : Respelling} :
    begin d source destination = .ok r ↔ ∃ v w, d.get source = .ok v ∧ d.get destination = .ok w ∧
      r = ⟨d, v, w, 0⟩ := by
  rw [begin]
  constructor
  · intro h
    cases hv : d.get source with
    | error e =>
        rw [hv] at h
        cases h
    | ok v =>
        cases hw : d.get destination with
        | error e =>
            rw [hv, hw] at h
            cases h
        | ok w =>
            rw [hv, hw] at h
            cases h
            exact ⟨v, w, rfl, rfl, rfl⟩
  · rintro ⟨v, w, hv, hw, rfl⟩
    rw [hv, hw]
    rfl

namespace Progress

/-- The progress after the replacement of the keyword `t`. -/
def replaced (p : Progress) (t : Token) : Progress :=
  let r := p.respelling
  let spelling := t.respelled r.source r.destination
  ⟨{ r with drift := r.drift + t.growth r.source r.destination },
    replaceBytes (r.place t.start) (r.place t.stop) spelling.toList p.text,
    ⟨t.text, spelling, r.place t.start, r.place t.stop, r.drift⟩ :: p.replacements⟩

/-- A token is passed over, or it is a target with a counterpart and is replaced. -/
theorem step_eq_ok_iff {p q : Progress} {t : Token} (hready : p.respelling.Ready) :
    p.step t = .ok q ↔
      p.respelling.isTarget t = false ∧ q = p ∨
      p.respelling.isTarget t = true ∧
        t.HasCounterpart p.respelling.source p.respelling.destination ∧ q = p.replaced t := by
  rw [step]
  cases htarget : p.respelling.isTarget t with
  | false => simp [pure, Except.pure, eq_comm]
  | true =>
      have hkind : t.kind = .keyword := by
        rw [isTarget, Bool.and_eq_true, beq_iff_eq] at htarget
        exact htarget.1
      have hrespell : ∀ spelling, p.respelling.respell t.text = .ok spelling ↔ ∃ canonical,
          p.respelling.source.canonical? t.text = some canonical ∧
            p.respelling.destination.spelling? canonical = some spelling :=
        fun _ => Dictionary.respell_eq_ok_iff hready.1 hready.2
      simp only [if_true, Bool.true_eq_false, false_and, false_or, true_and]
      constructor
      · intro h
        cases hfound : p.respelling.respell t.text with
        | error e =>
            rw [hfound] at h
            cases h
        | ok spelling =>
            obtain ⟨canonical, hcanonical, hspelling⟩ := (hrespell spelling).mp hfound
            have hcounterpart : t.HasCounterpart p.respelling.source p.respelling.destination :=
              ⟨canonical, spelling, hcanonical, hspelling⟩
            refine ⟨hcounterpart, ?_⟩
            rw [hfound, advance, Dictionary.growth_eq_ok hready.1 hready.2 hkind hcounterpart] at h
            cases h
            rw [replaced, Token.respelled_of_counterpart hkind hcanonical hspelling]
      · rintro ⟨hcounterpart, rfl⟩
        obtain ⟨canonical, spelling, hcanonical, hspelling⟩ := hcounterpart
        have hfound : p.respelling.respell t.text = .ok spelling :=
          (hrespell spelling).mpr ⟨canonical, hcanonical, hspelling⟩
        rw [hfound, advance, Dictionary.growth_eq_ok hready.1 hready.2 hkind
          ⟨canonical, spelling, hcanonical, hspelling⟩, replaced,
          Token.respelled_of_counterpart hkind hcanonical hspelling]
        rfl

variable {v w : Vocabulary} {p q : Progress} {finished last : List Char} {start : Nat}
  {x : Piece} {pieces : List Piece}

/-- What holds before the tokens of `pieces` are gone through in a respelling from `v` to `w`: the
text is `finished`, to which its first `start` bytes have become, and then the pieces as they were
given; and the drift is by how much those bytes have grown. -/
structure Before (v w : Vocabulary) (p : Progress) (finished : List Char) (start : Nat)
    (pieces : List Piece) (last : List Char) : Prop where
  ready : p.respelling.Ready
  source : p.respelling.source = v
  destination : p.respelling.destination = w
  placed : Piece.Placed start pieces
  keywords : ∀ y ∈ pieces, y.token.kind = .keyword → v.isSpelling y.token.text = true
  text : p.text = finished ++ Piece.weave Token.chars pieces last
  drift : (byteLength finished : Int) = start + p.respelling.drift

/-- A token of the text is placed where it stands in the text as it has become. -/
theorem Before.place_eq (h : Before v w p finished start (x :: pieces) last) :
    p.respelling.place x.token.start = byteLength (finished ++ x.gap) ∧
      p.respelling.place x.token.stop = byteLength (finished ++ x.gap ++ x.token.chars) := by
  have hstart := h.placed.1
  have hstop := x.token.stop_eq
  have hdrift := h.drift
  rw [place, place]
  simp only [byteLength_append]
  constructor <;> omega

/-- The targets among the tokens of the text are the keywords. -/
theorem Before.isTarget_iff (h : Before v w p finished start (x :: pieces) last) :
    p.respelling.isTarget x.token = true ↔ x.token.kind = .keyword := by
  rw [isTarget, Bool.and_eq_true, beq_iff_eq, h.source]
  exact ⟨And.left, fun hkind => ⟨hkind, h.keywords x List.mem_cons_self hkind⟩⟩

/-- A replacement puts the new spelling in the place of the keyword and changes nothing else. -/
theorem Before.replaced_text (h : Before v w p finished start (x :: pieces) last) :
    (p.replaced x.token).text = finished ++ x.gap ++
      (x.token.respelledChars v w ++ Piece.weave Token.chars pieces last) := by
  obtain ⟨hstart, hstop⟩ := h.place_eq
  have htext : p.text = (finished ++ x.gap) ++
      (x.token.chars ++ Piece.weave Token.chars pieces last) := by
    rw [h.text, Piece.weave, List.append_assoc]
  rw [replaced]
  dsimp only
  rw [hstart, hstop, htext, replaceBytes_append, h.source, h.destination, Token.respelledChars]

/-- One token goes over to the finished text in its new spelling. -/
theorem Before.step (h : Before v w p finished start (x :: pieces) last)
    (hstep : p.step x.token = .ok q) :
    Before v w q (finished ++ x.gap ++ x.token.respelledChars v w) x.token.stop pieces last ∧
      q.respelling.drift = p.respelling.drift + x.token.growth v w ∧
      (x.token.kind = .keyword → x.token.HasCounterpart v w) := by
  have hkeywords := fun y hy => h.keywords y (List.mem_cons_of_mem _ hy)
  have hdrift := h.drift
  have hstop : x.token.stop = start + byteLength x.gap + byteLength x.token.chars := by
    rw [Token.stop_eq, h.placed.1]
  have hgrowth := x.token.byteLength_respelled v w
  obtain ⟨hfalse, rfl⟩ | ⟨htrue, hcounterpart, rfl⟩ := (step_eq_ok_iff h.ready).mp hstep
  · have hkind : x.token.kind ≠ .keyword := fun hkind => by
      rw [h.isTarget_iff.mpr hkind] at hfalse
      cases hfalse
    rw [Token.growth_of_ne_keyword hkind] at hgrowth ⊢
    refine ⟨⟨h.ready, h.source, h.destination, h.placed.2, hkeywords, ?_, ?_⟩,
      (Int.add_zero _).symm, fun hk => absurd hk hkind⟩
    · rw [h.text, Token.respelledChars_of_ne_keyword hkind, Piece.weave]
      simp only [List.append_assoc]
    · simp only [byteLength_append]
      omega
  · have hdriftNext : (p.replaced x.token).respelling.drift =
        p.respelling.drift + x.token.growth v w := by
      rw [← h.source, ← h.destination]
      rfl
    refine ⟨⟨h.ready, h.source, h.destination, h.placed.2, hkeywords, ?_, ?_⟩, hdriftNext,
      fun _ => ?_⟩
    · rw [h.replaced_text, List.append_assoc _ _ (Piece.weave _ _ _)]
    · rw [hdriftNext]
      simp only [byteLength_append]
      omega
    · rw [h.source, h.destination] at hcounterpart
      exact hcounterpart

/-- After all tokens the text is finished, and the drift is what they have grown. -/
theorem Before.run (h : Before v w p finished start pieces last)
    (hrun : (pieces.map Piece.token).foldlM Progress.step p = .ok q) :
    q.text = finished ++ Piece.weave (Token.respelledChars v w) pieces last ∧
      q.respelling.drift =
        p.respelling.drift + totalGrowth v w (pieces.map Piece.token) ∧
      Piece.HaveCounterparts v w pieces := by
  induction pieces generalizing p finished start with
  | nil =>
      cases hrun
      exact ⟨h.text, (Int.add_zero _).symm, List.forall_mem_nil _⟩
  | cons x pieces ih =>
      rw [List.map_cons, List.foldlM_cons] at hrun
      cases hstep : p.step x.token with
      | error e =>
          rw [hstep] at hrun
          cases hrun
      | ok m =>
          rw [hstep] at hrun
          obtain ⟨hbefore, hdrift, hcounterpart⟩ := h.step hstep
          obtain ⟨htext, hsum, hall⟩ := ih hbefore hrun
          refine ⟨?_, ?_, Piece.haveCounterparts_cons.mpr ⟨hcounterpart, hall⟩⟩
          · rw [htext, Piece.weave]
            simp only [List.append_assoc]
          · rw [hsum, hdrift, List.map_cons, totalGrowth_cons, Int.add_assoc]

/-- The replacements succeed where every keyword has a counterpart. -/
theorem Before.exists_run (h : Before v w p finished start pieces last)
    (hall : Piece.HaveCounterparts v w pieces) :
    ∃ q, (pieces.map Piece.token).foldlM Progress.step p = .ok q := by
  induction pieces generalizing p finished start with
  | nil => exact ⟨p, rfl⟩
  | cons x pieces ih =>
      obtain ⟨hx, hpieces⟩ := Piece.haveCounterparts_cons.mp hall
      obtain ⟨m, hstep⟩ : ∃ m, p.step x.token = .ok m := by
        cases htarget : p.respelling.isTarget x.token with
        | false => exact ⟨p, (step_eq_ok_iff h.ready).mpr (Or.inl ⟨htarget, rfl⟩)⟩
        | true =>
            have hcounterpart := hx (h.isTarget_iff.mp htarget)
            rw [← h.source, ← h.destination] at hcounterpart
            exact ⟨_, (step_eq_ok_iff h.ready).mpr (Or.inr ⟨htarget, hcounterpart, rfl⟩)⟩
      obtain ⟨q, hrun⟩ := ih (h.step hstep).1 hpieces
      refine ⟨q, ?_⟩
      rw [List.map_cons, List.foldlM_cons, hstep]
      exact hrun

end Progress

end Respelling

namespace Dictionary

variable {d : Dictionary} {source destination text : String} {out : Respelled}

/-- A text is respelled by its tokens in the source vocabulary, with a drift that begins at zero. -/
theorem respellText_eq_ok_iff : d.respellText source destination text = .ok out ↔
    ∃ v w tokens q, d.get source = .ok v ∧ d.get destination = .ok w ∧
      tokenize v text = .ok tokens ∧
      tokens.foldlM Respelling.Progress.step ⟨⟨d, v, w, 0⟩, text.toList, []⟩ = .ok q ∧
      out = ⟨String.ofList q.text, q.replacements.reverse, tokens.length, q.respelling.drift⟩ := by
  rw [respellText]
  constructor
  · intro h
    cases hbegin : Respelling.begin d source destination with
    | error e =>
        rw [hbegin] at h
        cases h
    | ok r =>
        obtain ⟨v, w, hv, hw, rfl⟩ := Respelling.begin_eq_ok_iff.mp hbegin
        rw [hbegin] at h
        cases htokens : tokenize v text with
        | error e =>
            simp only [bind, Except.bind, Respelling.run, htokens, Except.mapError] at h
            cases h
        | ok tokens =>
            simp only [bind, Except.bind, Respelling.run, htokens, Except.mapError,
              Respelling.replaceTokens] at h
            split at h
            · cases h
            · rename_i q hq
              cases h
              exact ⟨v, w, tokens, q, hv, hw, htokens, hq, rfl⟩
  · rintro ⟨v, w, tokens, q, hv, hw, htokens, hq, rfl⟩
    rw [Respelling.begin_eq_ok_iff.mpr ⟨v, w, hv, hw, rfl⟩]
    simp only [bind, Except.bind, Respelling.run, htokens, Except.mapError,
      Respelling.replaceTokens, hq]
    rfl

variable {v w : Vocabulary} {pieces : List Piece} {last line : List Char}

/-- Before the first token nothing is finished but the line that is no part of the program. -/
theorem before_first (hv : d.get source = .ok v) (hw : d.get destination = .ok w)
    (hyields : LexerState.Yields v (.initial text.toList) pieces last)
    (hoffset : (LexerState.initial text.toList).offset = byteLength line)
    (htext : text.toList = line ++ (LexerState.initial text.toList).rest) :
    Respelling.Progress.Before v w ⟨⟨d, v, w, 0⟩, text.toList, []⟩ line (byteLength line) pieces
      last where
  ready := by
    rw [Respelling.Ready, name_of_get hv, name_of_get hw]
    exact ⟨hv, hw⟩
  source := rfl
  destination := rfl
  placed := hoffset ▸ hyields.placed
  keywords := fun y hy hkind => (hyields.isName_of_keyword hy hkind).2
  text := by
    rw [hyields.weave_eq]
    exact htext
  drift := (Int.add_zero _).symm

/-- A respelled text consists of the pieces of the text, the tokens in their new spelling. -/
theorem toList_of_respellText (hv : d.get source = .ok v) (hw : d.get destination = .ok w)
    (hyields : LexerState.Yields v (.initial text.toList) pieces last)
    (hoffset : (LexerState.initial text.toList).offset = byteLength line)
    (htext : text.toList = line ++ (LexerState.initial text.toList).rest)
    (h : d.respellText source destination text = .ok out) :
    out.text.toList =
        line ++ Piece.weave (Token.respelledChars v w) pieces last ∧
      out.drift = totalGrowth v w (pieces.map Piece.token) ∧
      Piece.HaveCounterparts v w pieces := by
  obtain ⟨v', w', tokens, q, hv', hw', htokens, hrun, rfl⟩ := respellText_eq_ok_iff.mp h
  cases hv.symm.trans hv'
  cases hw.symm.trans hw'
  cases htokens.symm.trans (tokenize_eq_ok_iff.mpr ⟨pieces, last, hyields, rfl⟩)
  obtain ⟨hq, hdrift, hall⟩ := (before_first hv hw hyields hoffset htext).run hrun
  exact ⟨by rw [String.toList_ofList, hq], by rw [hdrift, Int.zero_add], hall⟩

/-- A text is respelled when it consists of tokens and every keyword has a counterpart. -/
theorem exists_respellText (hv : d.get source = .ok v) (hw : d.get destination = .ok w)
    (hyields : LexerState.Yields v (.initial text.toList) pieces last)
    (hall : Piece.HaveCounterparts v w pieces) :
    ∃ out, d.respellText source destination text = .ok out := by
  obtain ⟨line, hoffset, htext, _⟩ := LexerState.initial_eq text.toList
  obtain ⟨q, hrun⟩ := (before_first hv hw hyields hoffset htext).exists_run hall
  exact ⟨_, respellText_eq_ok_iff.mpr
    ⟨v, w, _, q, hv, hw, tokenize_eq_ok_iff.mpr ⟨pieces, last, hyields, rfl⟩, hrun, rfl⟩⟩

end Dictionary

end Respell
