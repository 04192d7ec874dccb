import Respell.Proofs.Respelling.Progress
import Respell.Proofs.Respelling.Simulation

/-!
# The structure of a respelled text

A respelled text has under the destination vocabulary the tokens that the text has under the source
vocabulary, in other spellings and at other places, when no word of the text becomes a keyword and
no keyword touches a numeral. `tokenize_respellText` states this. `kept_iff` says of all pieces at
once what `Kept` says along them.
-/

namespace Respell

open Text

variable {v w : Vocabulary}

/-- The word behind these tokens names a property: the last of them is one of the two punctuators of
access. -/
def namesPropertyAfter (tokens : List Token) : Bool :=
  tokens.getLast?.any fun t => t.isPunctuator "." || t.isPunctuator "?."

/-- A plain word of the text that names no property is a spelling of `w`. -/
def Collides (w : Vocabulary) (tokens : List Token) : Prop :=
  ∃ front t back, tokens = front ++ t :: back ∧ t.IsPlainWord ∧
    namesPropertyAfter front = false ∧ w.isSpelling t.text = true

/-- A keyword begins where a numeral ends. -/
def Touches (tokens : List Token) : Prop :=
  ∃ t ∈ tokens, ∃ u ∈ tokens, t.kind = .numeric ∧ u.kind = .keyword ∧ u.start = t.stop

instance (tokens : List Token) : Decidable (Touches tokens) :=
  inferInstanceAs (Decidable (∃ t ∈ tokens, ∃ u ∈ tokens, _ ∧ _ ∧ _))

/-- No word collides when no plain word is a spelling at all. -/
theorem not_collides {tokens : List Token}
    (h : ∀ t ∈ tokens, t.IsPlainWord → w.isSpelling t.text = false) : ¬ Collides w tokens := by
  rintro ⟨front, t, back, rfl, hplain, _, hspelling⟩
  rw [h t (by simp) hplain] at hspelling
  cases hspelling

/-- `t.Becomes v w before after u`: the token `t` of a text has become the token `u` of the text
respelled from `v` to `w`, before which the text has grown by `before` bytes and behind which it has
grown by `after`. -/
structure Token.Becomes (v w : Vocabulary) (before after : Int) (t u : Token) : Prop where
  kind : u.kind = t.kind
  text : t.kind ≠ .keyword → u.text = t.text
  canonical : t.kind = .keyword →
    ∃ canonical, v.canonical? t.text = some canonical ∧ w.canonical? u.text = some canonical
  start : (u.start : Int) = t.start + before
  stop : (u.stop : Int) = t.stop + after

/-- What names a property is asked of the last token. -/
theorem Context.namesProperty_eq {ctx : Context} {tokens : List Token}
    (h : ctx.before.reverse = tokens) : ctx.namesProperty = namesPropertyAfter tokens := by
  rw [← h, namesProperty, namesPropertyAfter, List.getLast?_reverse, endsInPunctuator,
    endsInPunctuator]
  cases ctx.before.head? <;> rfl

/-- The condition on the pieces one after the other is one on each piece. -/
theorem kept_iff {ctx : Context} {pieces : List Piece} {last : List Char} :
    Kept v w ctx pieces last ↔ ∀ front p back, pieces = front ++ p :: back →
      (p.token.IsPlainWord →
        namesPropertyAfter (ctx.before.reverse ++ front.map Piece.token) = false →
        w.isSpelling p.token.text = false) ∧
      (p.token.kind = .numeric →
        Numeral.numeral (p.token.chars ++ Piece.weave (Token.respelledChars v w) back last) =
          some (p.token.chars, Piece.weave (Token.respelledChars v w) back last)) := by
  induction pieces generalizing ctx with
  | nil => exact ⟨fun _ front p back h => by simp at h, fun _ => trivial⟩
  | cons x pieces ih =>
      have hproperty : ctx.namesProperty = namesPropertyAfter (ctx.before.reverse ++ []) :=
        Context.namesProperty_eq (List.append_nil _).symm
      have hpush : ∀ front : List Piece,
          (ctx.push v x.token).before.reverse ++ front.map Piece.token =
            ctx.before.reverse ++ (x :: front).map Piece.token := by
        intro front
        simp [Context.push]
      rw [Kept, ih]
      constructor
      · rintro ⟨hplain, hnumeral, hpieces⟩ front p back hsplit
        cases front with
        | nil =>
            cases hsplit
            exact ⟨hproperty ▸ hplain, hnumeral⟩
        | cons y front =>
            obtain ⟨rfl, hback⟩ := List.cons.inj hsplit
            rw [← hpush]
            exact hpieces front p back hback
      · intro h
        obtain ⟨hplain, hnumeral⟩ := h [] x pieces rfl
        refine ⟨hproperty ▸ hplain, hnumeral, fun front p back hsplit => ?_⟩
        rw [hpush]
        exact h (x :: front) p back (congrArg (x :: ·) hsplit)

namespace LexerState

variable {s : LexerState} {pieces : List Piece} {last : List Char}

/-- Where no keyword comes first, what a run has before it is closely alike in the new spelling. -/
theorem Yields.closelyAlike (h : Yields v s pieces last) (hnames : w.SpellsNames)
    (hcounterpart : Piece.HaveCounterparts v w pieces)
    (hfirst : ∀ p ∈ pieces.head?, p.token.kind = .keyword → p.gap ≠ []) :
    CloselyAlike s.rest (Piece.weave (Token.respelledChars v w) pieces last) := by
  have halike := h.alike_respelled hnames hcounterpart
  cases h with
  | done hskip =>
      have hlast := (Trivia.skip_eq_ok_iff.mp hskip).1
      rw [hlast, List.append_nil]
      exact .refl _
  | @token _ gap rest _ c l pieces hskip hread hyields =>
      obtain ⟨htext, hgap, _⟩ := Trivia.skip_eq_ok_iff.mp hskip
      rw [htext, Piece.weave] at halike ⊢
      cases gap with
      | cons g gap =>
          -- The first character is that of a blank or of a comment.
          obtain ⟨t, ht, htail⟩ := halike.tail hgap.isStart_eq_false
          rw [List.cons_append, ht]
          exact .of_not_isStart htail hgap.isStart_eq_false
      | nil =>
          have hkind : l.kind ≠ .keyword := fun hkind => hfirst _ rfl hkind rfl
          have hback : Alike l.rest _ :=
            hyields.alike_respelled hnames fun p hp => hcounterpart p (List.mem_cons_of_mem _ hp)
          rw [Token.respelledChars_of_ne_keyword hkind, Lexeme.token_chars,
            ← (Lexeme.reads_of_read hread).1]
          exact Lexeme.closelyAlike_append hread hback

/-- The pieces keep their ends and kinds where no plain word is a spelling and every numeral right
before a keyword is read as it is. -/
theorem Yields.kept (h : Yields v s pieces last) (hbefore : s.context.before = [])
    (hnames : w.SpellsNames) (hcounterpart : Piece.HaveCounterparts v w pieces)
    (hfree : ¬ Collides w (pieces.map Piece.token))
    (hnumerals : ∀ front p q back, pieces = front ++ p :: q :: back → p.token.kind = .numeric →
      q.token.kind = .keyword → q.gap = [] →
      Numeral.numeral (p.token.chars ++ Piece.weave (Token.respelledChars v w) (q :: back) last) =
        some (p.token.chars, Piece.weave (Token.respelledChars v w) (q :: back) last)) :
    Kept v w s.context pieces last := by
  refine kept_iff.mpr fun front p back hsplit => ⟨fun hword hproperty => ?_, fun hkind => ?_⟩
  · rw [hbefore, List.reverse_nil, List.nil_append] at hproperty
    cases hspelling : w.isSpelling p.token.text with
    | false => rfl
    | true =>
        refine absurd ⟨front.map Piece.token, p.token, back.map Piece.token, ?_, hword, hproperty,
          hspelling⟩ hfree
        rw [hsplit, List.map_append, List.map_cons]
  · subst hsplit
    obtain ⟨t, ht, _⟩ := h.split
    cases ht with
    | @token _ gap rest _ c l _ hskip hread hyields =>
        have hback : Piece.HaveCounterparts v w back :=
          fun q hq => hcounterpart q (List.mem_append_right _ (List.mem_cons_of_mem _ hq))
        by_cases hfirst : ∀ q ∈ back.head?, q.token.kind = .keyword → q.gap ≠ []
        · rw [Lexeme.token_chars]
          exact Numeral.numeral_congr (hyields.closelyAlike hnames hback hfirst)
            (Lexeme.numeral_of_read hread hkind)
        · cases back with
          | nil => exact absurd (fun q hq => absurd hq (Option.not_mem_none q)) hfirst
          | cons q back =>
              simp only [List.head?_cons, Option.mem_some_iff, forall_eq', Classical.not_imp,
                not_not] at hfirst
              exact hnumerals front _ q back rfl hkind hfirst.1 hfirst.2

/-- The pieces keep their ends and kinds where no plain word is a spelling and no keyword touches a
numeral. -/
theorem Yields.kept_of_not_touches (h : Yields v s pieces last) (hbefore : s.context.before = [])
    (hnames : w.SpellsNames) (hcounterpart : Piece.HaveCounterparts v w pieces)
    (hfree : ¬ Collides w (pieces.map Piece.token)) (hapart : ¬ Touches (pieces.map Piece.token)) :
    Kept v w s.context pieces last := by
  refine h.kept hbefore hnames hcounterpart hfree fun front p q back hsplit hp hq hgap => ?_
  -- Without a gap between them the keyword touches the numeral.
  refine absurd ⟨p.token, ?_, q.token, ?_, hp, hq, ?_⟩ hapart
  · exact List.mem_map_of_mem (by rw [hsplit]; simp)
  · exact List.mem_map_of_mem (by rw [hsplit]; simp)
  · rw [hsplit] at h
    rw [h.start_eq, hgap, byteLength_nil, Nat.add_zero]

end LexerState

/-- A token at some distance from `n` has become its new spelling at that distance from `m`. -/
theorem Token.becomes_renewed {t : Token} {n m gap : Nat} (hstart : t.start = n + gap)
    (h : t.kind = .keyword → t.HasCounterpart v w) :
    t.Becomes v w (m - n) (m - n + t.growth v w) (t.renewed v w (m + gap)) where
  kind := rfl
  text := Token.respelled_of_ne_keyword
  canonical hkind := (h hkind).canonical hkind
  start := by
    show ((m + gap : Nat) : Int) = t.start + (m - n)
    omega
  stop := by
    have hstop := t.stop_eq
    rw [Token.renewed_stop]
    omega

/-- The pieces in their new spelling are as many, and each token has become one of them. -/
theorem Piece.becomes_renewed {n m : Nat} {pieces : List Piece} (hplaced : Placed n pieces)
    (hcounterpart : Piece.HaveCounterparts v w pieces) :
    (renewed v w m pieces).length = pieces.length ∧
      ∀ i (hi : i < pieces.length) (ho : i < (renewed v w m pieces).length),
        pieces[i].token.Becomes v w (m - n + totalGrowth v w ((pieces.take i).map token))
          (m - n + totalGrowth v w ((pieces.take (i + 1)).map token))
          (renewed v w m pieces)[i].token := by
  induction pieces generalizing n m with
  | nil => exact ⟨rfl, fun i hi => absurd hi (Nat.not_lt_zero i)⟩
  | cons p pieces ih =>
      obtain ⟨hstart, hplaced⟩ := hplaced
      obtain ⟨hp, hpieces⟩ := Piece.haveCounterparts_cons.mp hcounterpart
      have hstop := p.token.stop_eq
      have hrenewed := p.token.renewed_stop v w (m + byteLength p.gap)
      obtain ⟨hlength, hbecomes⟩ := ih (m := (p.token.renewed v w (m + byteLength p.gap)).stop)
        hplaced hpieces
      refine ⟨congrArg (· + 1) hlength, fun i hi ho => ?_⟩
      cases i with
      | zero =>
          have hzero := Token.becomes_renewed (m := m) hstart hp
          rw [List.take_succ_cons, List.take_zero, List.take_zero, List.map_cons, List.map_nil,
            totalGrowth_cons, totalGrowth_nil, Int.add_zero, Int.add_zero]
          exact hzero
      | succ i =>
          -- The growth of the first token is counted to what comes before the others.
          have hshift : ∀ k, ((p.token.renewed v w (m + byteLength p.gap)).stop : Int) -
              p.token.stop + totalGrowth v w ((pieces.take k).map token) =
              m - n + totalGrowth v w (((p :: pieces).take (k + 1)).map token) := by
            intro k
            rw [List.take_succ_cons, List.map_cons, totalGrowth_cons]
            omega
          have hlater := hbecomes i (Nat.lt_of_succ_lt_succ hi) (Nat.lt_of_succ_lt_succ ho)
          rw [hshift, hshift] at hlater
          exact hlater

namespace Dictionary

variable {d : Dictionary} {source destination text : String} {out : Respelled}
  {pieces : List Piece} {last : List Char} (hv : d.get source = .ok v)
  (hw : d.get destination = .ok w) (h : d.respellText source destination text = .ok out)
  (hyields : LexerState.Yields v (.initial text.toList) pieces last)

include hv hw h hyields

/-- A text and its respelling have one first line in front of the pieces in their two spellings. -/
theorem exists_line_of_respellText (hnames : w.SpellsNames) :
    ∃ line, (LexerState.initial text.toList).offset = byteLength line ∧
      text.toList = line ++ (LexerState.initial text.toList).rest ∧
      out.text.toList = line ++ Piece.weave (Token.respelledChars v w) pieces last ∧
      LexerState.initial out.text.toList =
        ⟨Context.initial, byteLength line, Piece.weave (Token.respelledChars v w) pieces last⟩ := by
  obtain ⟨line, hoffset, htext, hline⟩ := LexerState.initial_eq text.toList
  obtain ⟨hchars, _, hcounterpart⟩ := toList_of_respellText hv hw hyields hoffset htext h
  refine ⟨line, hoffset, htext, hchars, ?_⟩
  rw [hchars]
  exact LexerState.initial_again hline (hyields.alike_respelled hnames hcounterpart)

/-- The keywords of a text that is respelled have counterparts. -/
theorem haveCounterparts_of_respellText : Piece.HaveCounterparts v w pieces := by
  obtain ⟨line, hoffset, htext, _⟩ := LexerState.initial_eq text.toList
  exact (toList_of_respellText hv hw hyields hoffset htext h).2.2

/-- Under the vocabulary it is written in, a respelled text yields the pieces in their new
spelling. -/
theorem yields_respellText (hnames : w.SpellsNames)
    (hkept : Kept v w Context.initial pieces last) :
    LexerState.Yields w (.initial out.text.toList)
      (Piece.renewed v w (LexerState.initial text.toList).offset pieces) last := by
  obtain ⟨line, hoffset, _, _, hinitial⟩ := exists_line_of_respellText hv hw h hyields hnames
  rw [hinitial, hoffset]
  exact hyields.renewed (Context.Matches.initial v w) rfl hnames
    (haveCounterparts_of_respellText hv hw h hyields) hkept

end Dictionary

/-- The tokens of a respelled text under the destination vocabulary are the tokens of the text in
their new spelling, each at the place to which the keywords before it have moved it. -/
theorem tokenize_respellText {d : Dictionary} {source destination text : String} {out : Respelled}
    {tokens : List Token} (hv : d.get source = .ok v) (hw : d.get destination = .ok w)
    (h : d.respellText source destination text = .ok out) (htokens : tokenize v text = .ok tokens)
    (hnames : w.SpellsNames) (hfree : ¬ Collides w tokens) (hapart : ¬ Touches tokens) :
    ∃ others, tokenize w out.text = .ok others ∧ others.length = tokens.length ∧
      ∀ i (hi : i < tokens.length) (ho : i < others.length),
        tokens[i].Becomes v w (totalGrowth v w (tokens.take i))
          (totalGrowth v w (tokens.take (i + 1))) others[i] := by
  obtain ⟨pieces, last, hyields, rfl⟩ := tokenize_eq_ok_iff.mp htokens
  have hcounterpart := Dictionary.haveCounterparts_of_respellText hv hw h hyields
  have hplaced := hyields.placed
  have hkept : Kept v w Context.initial pieces last :=
    hyields.kept_of_not_touches rfl hnames hcounterpart hfree hapart
  have hothers := Dictionary.yields_respellText hv hw h hyields hnames hkept
  obtain ⟨hlength, hbecomes⟩ := Piece.becomes_renewed
    (m := (LexerState.initial text.toList).offset) hplaced hcounterpart
  refine ⟨_, tokenize_eq_ok_iff.mpr ⟨_, last, hothers, rfl⟩, by simpa using hlength, ?_⟩
  intro i hi ho
  rw [List.length_map] at hi ho
  have hi' := hbecomes i hi ho
  rw [Int.sub_self, Int.zero_add, Int.zero_add] at hi'
  simpa using hi'

/-- A slash divides after a property and begins a regular expression after a keyword, in the text
and in the respelled text, in which the one keyword is longer and the other one shorter. -/
theorem tokenize_respellText_slashes :
    let text := "if(o.if/2)return/x/"
    let tokens : List Token := [⟨.keyword, "if", 0⟩, ⟨.punctuator, "(", 2⟩, ⟨.identifier, "o", 3⟩,
      ⟨.punctuator, ".", 4⟩, ⟨.identifier, "if", 5⟩, ⟨.punctuator, "/", 7⟩, ⟨.numeric, "2", 8⟩,
      ⟨.punctuator, ")", 9⟩, ⟨.keyword, "return", 10⟩, ⟨.regex, "/x/", 16⟩]
    ∃ plain greek out others,
      Vocabulary.ofPairs "plain" [("if", "if"), ("return", "return")] = .ok plain ∧
        Vocabulary.ofPairs "greek" [("if", "whenever"), ("return", "ε")] = .ok greek ∧
        tokenize plain text = .ok tokens ∧
        ((Dictionary.empty.insert plain).insert greek).respellText "plain" "greek" text = .ok out ∧
        tokenize greek out.text = .ok others ∧ others.length = tokens.length ∧
        ∀ i (hi : i < tokens.length) (ho : i < others.length),
          tokens[i].Becomes plain greek (totalGrowth plain greek (tokens.take i))
            (totalGrowth plain greek (tokens.take (i + 1))) others[i] := by
  intro text tokens
  let plain : Vocabulary :=
    ⟨"plain", ⟨[("if", "if"), ("return", "return")], by decide⟩, by decide⟩
  let greek : Vocabulary :=
    ⟨"greek", ⟨[("if", "whenever"), ("return", "ε")], by decide⟩, by decide⟩
  let d := (Dictionary.empty.insert plain).insert greek
  let out : Respelled := ⟨"whenever(o.if/2)ε/x/",
    [⟨"if", "whenever", 0, 2, 0⟩, ⟨"return", "ε", 16, 22, 6⟩], 10, 2⟩
  have htokens : tokenize plain text = .ok tokens := by decide +kernel
  have hout : d.respellText "plain" "greek" text = .ok out := by decide +kernel
  have hnames : greek.SpellsNames := by decide +kernel
  have hfree : ¬ Collides greek tokens := not_collides (by decide +kernel)
  have hapart : ¬ Touches tokens := by decide +kernel
  have hplain : d.get "plain" = .ok plain := by decide +kernel
  have hgreek : d.get "greek" = .ok greek := by decide +kernel
  obtain ⟨others, hothers⟩ :=
    tokenize_respellText hplain hgreek hout htokens hnames hfree hapart
  exact ⟨plain, greek, out, others, by decide +kernel, by decide +kernel, htokens, hout, hothers⟩

end Respell
