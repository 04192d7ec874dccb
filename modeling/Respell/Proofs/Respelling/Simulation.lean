import Respell.Proofs.Respelling.Spelling
import Respell.Proofs.Token.Again

/-!
# The tokens of a respelled text

A respelled text is read under the destination vocabulary token by token as the text itself is read
under the source vocabulary. Two things can prevent this: a word that is no keyword of the source
is one of the destination, and a new spelling lengthens the numeral right before it. `Kept` rules
out both along the pieces of a text, `Lexeme.read_respelled` is the step from one token to the next,
and `Yields.renewed` is the whole run.
-/

namespace Respell

open Text

variable {v w : Vocabulary}

/-- The token in its new spelling at the byte offset `start`. -/
def Token.renewed (v w : Vocabulary) (start : Nat) (t : Token) : Token :=
  ⟨t.kind, t.respelled v w, start⟩

@[simp] theorem Token.renewed_kind (v w : Vocabulary) (start : Nat) (t : Token) :
    (t.renewed v w start).kind = t.kind := rfl

@[simp] theorem Token.renewed_chars (v w : Vocabulary) (start : Nat) (t : Token) :
    (t.renewed v w start).chars = t.respelledChars v w := rfl

/-- The end of a token in its new spelling is further behind its beginning by its growth. -/
theorem Token.renewed_stop (v w : Vocabulary) (start : Nat) (t : Token) :
    ((t.renewed v w start).stop : Int) = start + byteLength t.chars + t.growth v w := by
  have hlength := t.byteLength_respelled v w
  have hstop := (t.renewed v w start).stop_eq
  rw [Token.renewed_chars] at hstop
  rw [hstop]
  show ((start + byteLength (t.respelledChars v w) : Nat) : Int) = _
  omega

/-- A word that could be a keyword of another vocabulary: it has no escape, and it is no private
name. -/
def Token.IsPlainWord (t : Token) : Prop :=
  (t.kind = .identifier ∨ t.kind = .boolean ∨ t.kind = .null) ∧ '\\' ∉ t.chars ∧
    t.chars.head? ≠ some '#'

instance (t : Token) : Decidable t.IsPlainWord := inferInstanceAs (Decidable (_ ∧ _))

/-- The pieces in their new spelling, of which the first gap begins at the byte offset `n`. -/
def Piece.renewed (v w : Vocabulary) : Nat → List Piece → List Piece
  | _, [] => []
  | n, p :: pieces =>
    let t := p.token.renewed v w (n + byteLength p.gap)
    ⟨p.gap, t⟩ :: renewed v w t.stop pieces

/-- Respelled from `v` to `w`, the tokens of the pieces behind a context keep their ends and kinds:
no plain word that names no property is a spelling of `w`, and every numeral is read before the
respelled rest of the text as it is. -/
def Kept (v w : Vocabulary) : Context → List Piece → List Char → Prop
  | _, [], _ => True
  | ctx, p :: pieces, last =>
    (p.token.IsPlainWord → ctx.namesProperty = false → w.isSpelling p.token.text = false) ∧
    (p.token.kind = .numeric →
      Numeral.numeral (p.token.chars ++ Piece.weave (Token.respelledChars v w) pieces last) =
        some (p.token.chars, Piece.weave (Token.respelledChars v w) pieces last)) ∧
    Kept v w (ctx.push v p.token) pieces last

/-- A keyword in its new spelling has the canonical name that it had. -/
theorem Token.canonical?_renewed {t : Token} (start : Nat)
    (h : t.kind = .keyword → t.HasCounterpart v w) :
    (t.renewed v w start).canonical? w = t.canonical? v := by
  rw [Token.canonical?, Token.canonical?, Token.renewed_kind]
  split
  · rename_i hkind
    obtain ⟨canonical, hold, hnew⟩ := (h hkind).canonical hkind
    exact hnew.trans hold.symm
  · rfl

/-- A token plays in its new spelling the part that it played. -/
theorem Token.matches_renewed {t : Token} (start : Nat)
    (h : t.kind = .keyword → t.HasCounterpart v w) : t.Matches v w (t.renewed v w start) where
  kind := rfl
  text hkind := (Token.respelled_of_ne_keyword hkind).symm
  canonical := (Token.canonical?_renewed start h).symm

/-- The new spelling of a keyword is a spelling, and a name where all spellings are. -/
theorem Token.isSpelling_respelled {t : Token} (hkind : t.kind = .keyword)
    (h : t.HasCounterpart v w) (hnames : w.SpellsNames) :
    w.isSpelling (t.respelled v w) = true ∧
      Identifier.isName (t.respelledChars v w) = true := by
  obtain ⟨canonical, _, hcanonical⟩ := h.canonical hkind
  exact ⟨Vocabulary.isSpelling_iff.mpr ⟨canonical, hcanonical⟩,
    hnames (canonical, t.respelled v w) (Vocabulary.canonical?_eq_some_iff_mem.mp hcanonical)⟩

/-- A keyword that is a name in both spellings makes no difference to what is alike. -/
theorem Token.alike_respelled {t : Token} {s other : List Char} (halike : Alike s other)
    (h : t.kind = .keyword → Identifier.isName t.chars = true ∧
      Identifier.isName (t.respelledChars v w) = true) :
    Alike (t.chars ++ s) (t.respelledChars v w ++ other) := by
  by_cases hkind : t.kind = .keyword
  · obtain ⟨hold, hnew⟩ := h hkind
    exact .of_isName hold hnew _ _
  · rw [Token.respelledChars_of_ne_keyword hkind]
    exact halike.append _

/-- The pieces are alike in both spellings when all keywords are names in both. -/
theorem Piece.alike_weave {pieces : List Piece} (last : List Char)
    (h : ∀ p ∈ pieces, p.token.kind = .keyword → Identifier.isName p.token.chars = true ∧
      Identifier.isName (p.token.respelledChars v w) = true) :
    Alike (weave Token.chars pieces last) (weave (Token.respelledChars v w) pieces last) := by
  induction pieces with
  | nil => exact .refl _
  | cons p pieces ih =>
      obtain ⟨hp, hpieces⟩ := List.forall_mem_cons.mp h
      exact (Token.alike_respelled (ih hpieces) hp).append _

/-- The lexeme of a token in its new spelling, before the text `after`. -/
def Token.renewedLexeme (v w : Vocabulary) (after : List Char) (t : Token) : Lexeme :=
  ⟨t.kind, t.respelledChars v w, after⟩

/-- As a token the lexeme of a token in its new spelling is that token. -/
theorem Token.token_renewedLexeme (t : Token) (after : List Char) (start : Nat) :
    (t.renewedLexeme v w after).token start = t.renewed v w start := by
  rw [Lexeme.token, Token.renewed, Token.renewedLexeme, Token.respelledChars, String.ofList_toList]

namespace Lexeme

variable {ctx other : Context} {c : Char} {rest after : List Char} {l : Lexeme}

/-- The plain words among the tokens are the words that are read without an escape and are no
keyword. -/
theorem isPlainWord_token_iff (h : read v ctx c rest = .ok l) (start : Nat) :
    (l.token start).IsPlainWord ↔ l.kind ≠ .keyword ∧ form v ctx c rest.head? = .word ∧
      Word.scan (c :: rest) = .ok ⟨l.text, false, l.rest⟩ := by
  rw [Token.IsPlainWord, token_chars, token_kind, head?_of_read h]
  rw [read_eq_readForm] at h
  constructor
  · rintro ⟨hkind, hescape, hhash⟩
    have hform : form v ctx c rest.head? = .word := by
      cases hform : form v ctx c rest.head? with
      | word => rfl
      | privateName => exact absurd (congrArg some (begins_of_form hform).1) hhash
      | string | template | numeral | regex | punctuator =>
          rw [hform, readForm, ofMatcher_eq_ok_iff] at h
          rw [h.1] at hkind
          simp at hkind
    rw [hform] at h
    obtain ⟨escaped, hscan, hword⟩ := word_eq_ok_iff.mp h
    refine ⟨fun hkeyword => ?_, hform, ?_⟩
    · rw [hkeyword] at hkind
      simp at hkind
    · cases escaped with
      | false => exact hscan
      | true =>
          refine absurd (Word.backslash_mem_of_scanFrom hscan rfl ?_) hescape
          exact Bool.false_ne_true.elim
  · rintro ⟨hkind, hform, hscan⟩
    rw [hform] at h
    obtain ⟨escaped, _, hword⟩ := word_eq_ok_iff.mp h
    refine ⟨?_, fun hescape => ?_, ?_⟩
    · rw [hword] at hkind ⊢
      exact wordKind_of_ne_keyword hkind
    · have := Word.isPart_of_scanFrom hscan rfl (List.forall_mem_nil _) _ hescape
      exact absurd this Bool.false_ne_true
    · intro hhash
      obtain rfl : c = '#' := Option.some.inj hhash
      rcases begins_of_form hform with hstart | ⟨hbackslash, _⟩
      · exact absurd hstart Bool.false_ne_true
      · revert hbackslash
        decide

/-- Before a token in its new spelling the same gap is skipped. -/
theorem skip_respelled {s gap : List Char} {start : Nat}
    (hskip : Trivia.skip s = .ok (gap, c :: rest)) (h : read v ctx c rest = .ok l)
    (hnames : w.SpellsNames)
    (hcounterpart : l.kind = .keyword → (l.token start).HasCounterpart v w)
    (halike : Alike l.rest after) :
    ∃ d rest', (l.token start).respelledChars v w ++ after = d :: rest' ∧
      Trivia.skip (gap ++ ((l.token start).respelledChars v w ++ after)) =
        .ok (gap, d :: rest') := by
  have hwhole : Alike (c :: rest) ((l.token start).respelledChars v w ++ after) := by
    rw [← (reads_of_read h).1, ← token_chars l start]
    refine Token.alike_respelled halike fun hkind => ⟨?_, ?_⟩
    · rw [token_chars]
      exact (isName_of_read_keyword h hkind).1
    · exact (Token.isSpelling_respelled hkind (hcounterpart hkind) hnames).2
  obtain ⟨d, rest', htext⟩ := List.exists_cons_of_ne_nil
    (mt hwhole.eq_nil_iff.mpr (List.cons_ne_nil c rest))
  rw [htext] at hwhole ⊢
  exact ⟨d, rest', rfl, Trivia.skip_again hskip hwhole⟩

/-- A token is read in its new spelling as the token it was. The text behind it has to be alike, a
plain word must not be a spelling, and a numeral has to be read as it is. -/
theorem read_respelled (hctx : ctx.Matches v w other) (h : read v ctx c rest = .ok l) (start : Nat)
    (hnames : w.SpellsNames)
    (hcounterpart : l.kind = .keyword → (l.token start).HasCounterpart v w)
    (halike : Alike l.rest after)
    (hescape : Word.continues l.rest = false → l.rest.head? ≠ some '\\')
    (hplain : (l.token start).IsPlainWord → ctx.namesProperty = false →
      w.isSpelling (l.token start).text = false)
    (hnumeral : l.kind = .numeric → Numeral.numeral (l.text ++ after) = some (l.text, after)) :
    ∃ d rest', (l.token start).respelledChars v w ++ after = d :: rest' ∧
      read w other d rest' = .ok ((l.token start).renewedLexeme v w after) := by
  rw [Token.renewedLexeme, token_kind]
  by_cases hkind : l.kind = .keyword
  · obtain ⟨_, hproperty, _, hcontinues⟩ := isName_of_read_keyword h hkind
    obtain ⟨hspelling, hname⟩ := Token.isSpelling_respelled hkind (hcounterpart hkind) hnames
    rw [hkind]
    refine read_spelling (hctx.namesProperty ▸ hproperty) hname ?_
      (Word.continues_of_alike hcontinues (hescape hcontinues) halike)
    rw [Token.respelledChars, String.ofList_toList]
    exact hspelling
  · rw [Token.respelledChars_of_ne_keyword hkind, token_chars]
    have hform := h
    rw [read_eq_readForm] at hform
    refine ⟨c, read_again hctx h halike ?_ fun escaped hscan hword => ?_⟩
    · have happend := (reads_of_read h).1
      rw [← happend] at hform
      refine endsBefore_of_alike hform halike hescape fun hnumeric => hnumeral ?_
      rw [hnumeric] at hform
      exact (ofMatcher_eq_ok_iff.mp hform).1
    · rw [hword] at hform
      obtain ⟨escaped', hscan', hkind'⟩ := word_eq_ok_iff.mp hform
      cases hscan.symm.trans hscan'
      rw [hkind'] at hkind ⊢
      refine wordKind_congr hkind hctx.namesProperty fun hplainWord hproperty => ?_
      rw [hplainWord] at hscan
      rw [← hkind'] at hkind
      exact hplain ((isPlainWord_token_iff h start).mpr ⟨hkind, hword, hscan⟩) hproperty

end Lexeme

namespace LexerState

/-- What a run has before it is alike in the new spelling. -/
theorem Yields.alike_respelled {s : LexerState} {pieces : List Piece} {last : List Char}
    (h : Yields v s pieces last) (hnames : w.SpellsNames)
    (hcounterpart : Piece.HaveCounterparts v w pieces) :
    Alike s.rest (Piece.weave (Token.respelledChars v w) pieces last) := by
  rw [← h.weave_eq]
  refine Piece.alike_weave last fun p hp hkind => ⟨(h.isName_of_keyword hp hkind).1, ?_⟩
  exact (Token.isSpelling_respelled hkind (hcounterpart p hp hkind) hnames).2

/-- A respelled text yields the pieces of the text in their new spelling. -/
theorem Yields.renewed {s t : LexerState} {pieces : List Piece} {last : List Char}
    (h : Yields v s pieces last) (hcontext : s.context.Matches v w t.context)
    (hrest : t.rest = Piece.weave (Token.respelledChars v w) pieces last)
    (hnames : w.SpellsNames) (hcounterpart : Piece.HaveCounterparts v w pieces)
    (hkept : Kept v w s.context pieces last) :
    Yields w t (Piece.renewed v w t.offset pieces) last := by
  induction h generalizing t with
  | @done s last hskip =>
      have hlast := (Trivia.skip_eq_ok_iff.mp hskip).1
      rw [List.append_nil] at hlast
      rw [hlast] at hskip
      exact .done (hrest ▸ hskip)
  | @token s gap rest last c l pieces hskip hread hyields ih =>
      obtain ⟨hplain, hnumeral, hkept⟩ := hkept
      obtain ⟨hpiece, hpieces⟩ := Piece.haveCounterparts_cons.mp hcounterpart
      have halike : Alike l.rest _ := hyields.alike_respelled hnames hpieces
      rw [Lexeme.token_chars] at hnumeral
      obtain ⟨d, rest', htext, hread'⟩ := Lexeme.read_respelled hcontext hread _ hnames hpiece
        halike hyields.head?_ne_backslash hplain hnumeral
      obtain ⟨_, _, htext', hskip'⟩ := Lexeme.skip_respelled hskip hread hnames hpiece halike
      cases htext.symm.trans htext'
      rw [Piece.weave] at hrest
      rw [← hrest] at hskip'
      have htoken := Token.token_renewedLexeme (v := v) (w := w)
        (l.token (s.offset + byteLength gap)) (Piece.weave (Token.respelledChars v w) pieces last)
        (t.offset + byteLength gap)
      -- The next state is the one behind the new spelling of the token.
      have hnext := hcontext.push (Token.matches_renewed (t.offset + byteLength gap) hpiece)
      rw [← htoken] at hnext
      have hyields' := Yields.token hskip' hread' (ih hnext rfl hpieces hkept)
      rw [Piece.renewed, ← htoken]
      exact hyields'

end LexerState

end Respell
