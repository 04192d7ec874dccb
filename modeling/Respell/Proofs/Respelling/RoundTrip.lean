import Respell.Proofs.Respelling.Composition
import Respell.Proofs.Vocabulary.Document

/-!
# Respelling there and back

A text that is respelled and respelled back is not always the text it was: a word that is a spelling
of the destination alone becomes a keyword there, and a new spelling may lengthen the numeral before
it. `respellText_back_iff` states that nothing else can go wrong. One half follows from the
structure of the respelled text. For the other half, `Yields.kept_of_back`, the two runs are
followed side by side as long as the text comes back as it was.
-/

namespace Respell

open Text

variable {v w : Vocabulary}

/-- A numeral of the text, right before a keyword, is not read as it is in the text respelled from
`v` to `w`: the new spelling lengthens it. -/
def Lengthens (v w : Vocabulary) (text : List Char) (tokens : List Token) : Prop :=
  ∃ front t u back, tokens = front ++ t :: u :: back ∧ t.kind = .numeric ∧ u.kind = .keyword ∧
    u.start = t.stop ∧
    Numeral.numeral (t.chars ++ splice (Token.respelledChars v w) text t.stop (u :: back)) ≠
      some (t.chars, splice (Token.respelledChars v w) text t.stop (u :: back))

/-- A token in its new spelling goes back to the token. -/
theorem Token.respelledChars_back {t : Token} (start : Nat)
    (h : t.kind = .keyword → t.HasCounterpart v w) :
    (t.renewed v w start).respelledChars w v = t.chars := by
  have hspelling : t.kind = .keyword → v.isSpelling t.text = true := fun hkind =>
    (h hkind).isSpelling
  rw [Token.respelledChars_renewed start h fun hkind => Token.hasCounterpart_self (hspelling hkind),
    Token.respelledChars_self hspelling]

/-- The pieces in their new spelling have counterparts and go back to the pieces. -/
theorem Piece.weave_back {n : Nat} {pieces : List Piece} (last : List Char)
    (h : HaveCounterparts v w pieces) :
    HaveCounterparts w v (renewed v w n pieces) ∧
      weave (Token.respelledChars w v) (renewed v w n pieces) last =
        weave Token.chars pieces last := by
  have hself := haveCounterparts_self h.isSpelling
  refine ⟨(haveCounterparts_renewed_iff h).mpr hself, ?_⟩
  rw [weave_renewed last h hself, weave_self last h.isSpelling]

/-- What is spliced behind a piece is the rest of the text in the new spelling. -/
theorem LexerState.Yields.splice_behind {s : LexerState} {front back : List Piece} {p : Piece}
    {last line : List Char} (h : Yields v s (front ++ p :: back) last)
    (hoffset : s.offset = byteLength line) (f : Token → List Char) :
    splice f (line ++ s.rest) p.token.stop (back.map Piece.token) = Piece.weave f back last := by
  have hsplit : front ++ p :: back = (front ++ [p]) ++ back := by simp
  rw [hsplit] at h
  obtain ⟨t, ht, hrest, htoffset, hstop⟩ := h.split
  have htext : line ++ s.rest = (line ++ Piece.weave Token.chars (front ++ [p]) []) ++
      ([] ++ Piece.weave Token.chars back last) := by
    rw [hrest, ht.weave_eq, List.nil_append, List.append_assoc]
  have hbefore : p.token.stop = byteLength (line ++ Piece.weave Token.chars (front ++ [p]) []) := by
    rw [byteLength_append, ← hoffset, ← htoffset, hstop]
    simp
  have hplaced := ht.placed
  rw [htoffset, hoffset, ← byteLength_append, ← List.append_nil (line ++ _)] at hplaced
  rw [htext, hbefore]
  exact splice_eq_weave f last _ [] hplaced

/-- Two names at the beginning of one text are the same when neither goes on. -/
theorem Identifier.eq_of_isName {t u s other : List Char} (ht : isName t = true)
    (hu : isName u = true) (hs : s.head?.any isPart = false)
    (hother : other.head?.any isPart = false) (htext : t ++ s = u ++ other) : t = u := by
  have hmany := Matcher.many_eq_some_iff.mpr ⟨rfl, isPart_of_isName ht, hs⟩
  rw [htext, Matcher.many_eq_some_iff.mpr ⟨rfl, isPart_of_isName hu, hother⟩] at hmany
  exact (congrArg Prod.fst (Option.some.inj hmany)).symm

namespace Lexeme

variable {ctx other : Context} {c d : Char} {rest rest' after behind : List Char} {l m : Lexeme}
  {start n : Nat}

/-- A plain word that comes back as it was has not become a keyword. -/
theorem isSpelling_eq_false_of_back (hctx : ctx.Matches v w other)
    (hnamesSource : v.SpellsNames) (hnames : w.SpellsNames)
    (h : read v ctx c rest = .ok l) (hword : (l.token start).IsPlainWord)
    (hproperty : ctx.namesProperty = false) (halike : Alike l.rest after)
    (hescape : Word.continues l.rest = false → l.rest.head? ≠ some '\\')
    (htext : l.text ++ after = d :: rest') (hread : read w other d rest' = .ok m)
    (hcounterpart : m.kind = .keyword → (m.token n).HasCounterpart w v)
    (hbehind : Alike m.rest behind)
    (hback : (m.token n).respelledChars w v ++ behind = l.text ++ l.rest) :
    w.isSpelling (l.token start).text = false := by
  obtain ⟨hkind, hform, hscan⟩ := (isPlainWord_token_iff h start).mp hword
  rw [read_eq_readForm, hform] at h
  have hcontinues := continues_of_word h
  cases hspelling : w.isSpelling (l.token start).text with
  | false => rfl
  | true =>
      -- The word becomes a keyword, whose other spelling is then a name in the same place.
      obtain ⟨canonical, hcanonical⟩ := Vocabulary.isSpelling_iff.mp hspelling
      have hname : Identifier.isName l.text = true := by
        have := hnames _ (Vocabulary.canonical?_eq_some_iff_mem.mp hcanonical)
        rwa [token_text, String.toList_ofList] at this
      have hafter := Word.continues_of_alike hcontinues (hescape hcontinues) halike
      obtain ⟨d', rest'', htext', hread'⟩ :=
        read_spelling (hctx.namesProperty ▸ hproperty) hname hspelling hafter
      rw [htext, List.cons.injEq] at htext'
      obtain ⟨rfl, rfl⟩ := htext'
      rw [hread, Except.ok.injEq] at hread'
      subst hread'
      obtain ⟨hspelling', hname'⟩ :=
        Token.isSpelling_respelled rfl (hcounterpart rfl) hnamesSource
      have heq := Identifier.eq_of_isName hname' hname
        (hbehind.any_head_isPart ▸ (Bool.or_eq_false_iff.mp hafter).1)
        (Bool.or_eq_false_iff.mp hcontinues).1 hback
      -- So the word was a keyword before.
      obtain ⟨escaped, hscan', hword'⟩ := word_eq_ok_iff.mp h
      cases hscan.symm.trans hscan'
      refine absurd (hword'.trans (wordKind_eq_keyword_iff.mpr ⟨rfl, hproperty, ?_⟩)) hkind
      rw [← heq, Token.respelledChars, String.ofList_toList]
      exact hspelling'

/-- A numeral that comes back as it was has been read as it is. -/
theorem numeral_of_back (hctx : ctx.Matches v w other) (h : read v ctx c rest = .ok l)
    (hkind : l.kind = .numeric) (halike : Alike l.rest after)
    (htext : l.text ++ after = d :: rest') (hread : read w other d rest' = .ok m)
    (hback : (m.token n).respelledChars w v ++ behind = l.text ++ l.rest) :
    Numeral.numeral (l.text ++ after) = some (l.text, after) := by
  have hnumeral := numeral_of_read h hkind
  obtain ⟨rest'', htext', hform⟩ := form_again hctx h halike
  rw [htext, List.cons.injEq] at htext'
  obtain ⟨rfl, rfl⟩ := htext'
  rw [form_of_read_numeric h hkind] at hform
  rw [read_eq_readForm, hform, ← htext] at hread
  obtain ⟨hkind', hnumeral'⟩ := ofMatcher_eq_ok_iff.mp hread
  have hne : (m.token n).kind ≠ .keyword := by rw [token_kind, hkind']; decide
  rw [Token.respelledChars_of_ne_keyword hne, token_chars] at hback
  have hsplit := Numeral.splits_numeral _ _ _ hnumeral'
  rw [← hsplit] at hnumeral'
  have heq := Numeral.greedy_numeral.eq_of_takes hnumeral hnumeral' hback.symm hsplit
  rw [← heq] at hsplit hnumeral'
  rw [List.append_cancel_left hsplit] at hnumeral'
  exact hnumeral'

end Lexeme

namespace LexerState

/-- Where the text comes back as it was, its pieces have kept their ends and kinds. -/
theorem Yields.kept_of_back {s t : LexerState} {pieces others : List Piece} {last other : List Char}
    (h : Yields v s pieces last) (hothers : Yields w t others other)
    (hcontext : s.context.Matches v w t.context)
    (hrest : t.rest = Piece.weave (Token.respelledChars v w) pieces last)
    (hback : Piece.weave (Token.respelledChars w v) others other = s.rest)
    (hnamesSource : v.SpellsNames) (hnames : w.SpellsNames)
    (hcounterpart : Piece.HaveCounterparts v w pieces)
    (hcounterpartBack : Piece.HaveCounterparts w v others) :
    Kept v w s.context pieces last := by
  induction h generalizing t others other with
  | done => trivial
  | @token s gap rest last c l pieces hskip hread hyields ih =>
      obtain ⟨hpiece, hpieces⟩ := Piece.haveCounterparts_cons.mp hcounterpart
      have halike : Alike l.rest _ := hyields.alike_respelled hnames hpieces
      obtain ⟨d, rest', htext, hskip'⟩ := Lexeme.skip_respelled hskip hread hnames hpiece halike
      have happend := (Lexeme.reads_of_read hread).1
      cases hothers with
      | done hdone =>
          rw [hrest, Piece.weave, hskip'] at hdone
          cases hdone
      | @token _ gap' rest'' _ d' m others' hskip'' hread' hyields' =>
          rw [hrest, Piece.weave, hskip', Except.ok.injEq, Prod.mk.injEq] at hskip''
          obtain ⟨rfl, hcons⟩ := hskip''
          cases hcons
          obtain ⟨hpieceBack, hpiecesBack⟩ := Piece.haveCounterparts_cons.mp hcounterpartBack
          have hbehind : Alike m.rest _ := hyields'.alike_respelled hnamesSource hpiecesBack
          rw [(Trivia.skip_eq_ok_iff.mp hskip).1, Piece.weave] at hback
          have hback' := (List.append_cancel_left hback).trans happend.symm
          -- Here nothing has gone wrong, since the token comes back.
          have hplain : (l.token (s.offset + byteLength gap)).IsPlainWord →
              s.context.namesProperty = false →
              w.isSpelling (l.token (s.offset + byteLength gap)).text = false := by
            intro hword hproperty
            have hkind := ((Lexeme.isPlainWord_token_iff hread _).mp hword).1
            rw [Token.respelledChars_of_ne_keyword hkind, Lexeme.token_chars] at htext
            exact Lexeme.isSpelling_eq_false_of_back hcontext hnamesSource hnames hread hword
              hproperty halike hyields.head?_ne_backslash htext hread' hpieceBack hbehind hback'
          have hnumeral : l.kind = .numeric →
              Numeral.numeral (l.text ++ Piece.weave (Token.respelledChars v w) pieces last) =
                some (l.text, Piece.weave (Token.respelledChars v w) pieces last) := by
            intro hkind
            have hne : l.kind ≠ .keyword := by rw [hkind]; decide
            rw [Token.respelledChars_of_ne_keyword hne, Lexeme.token_chars] at htext
            exact Lexeme.numeral_of_back hcontext hread hkind halike htext hread' hback'
          obtain ⟨_, _, htext', hread''⟩ := Lexeme.read_respelled hcontext hread _ hnames hpiece
            halike hyields.head?_ne_backslash hplain hnumeral
          cases htext.symm.trans htext'
          cases hread'.symm.trans hread''
          rw [Token.token_renewedLexeme, Token.respelledChars_back _ hpiece,
            Lexeme.token_chars] at hback'
          have hnext := hcontext.push (Token.matches_renewed (t.offset + byteLength gap) hpiece)
          rw [← Token.token_renewedLexeme (l.token (s.offset + byteLength gap))
            (Piece.weave (Token.respelledChars v w) pieces last)] at hnext
          refine ⟨hplain, ?_, ih hyields' hnext rfl (List.append_cancel_left hback') hpieces
            hpiecesBack⟩
          rw [Lexeme.token_chars]
          exact hnumeral

end LexerState

namespace Dictionary

variable {d : Dictionary} {source destination text : String} {out : Respelled}
  {pieces : List Piece} {last : List Char} (hv : d.get source = .ok v)
  (hw : d.get destination = .ok w) (h : d.respellText source destination text = .ok out)
  (hyields : LexerState.Yields v (.initial text.toList) pieces last)

include hv hw h hyields

/-- A text whose pieces keep their ends and kinds comes back as it was. -/
theorem exists_back (hnames : w.SpellsNames) (hkept : Kept v w Context.initial pieces last) :
    ∃ back, d.respellText destination source out.text = .ok back ∧ back.text = text := by
  obtain ⟨line, _, htext, hchars, hinitial⟩ := exists_line_of_respellText hv hw h hyields hnames
  have hothers := yields_respellText hv hw h hyields hnames hkept
  obtain ⟨hcounterpart, hweave⟩ := Piece.weave_back
    (n := (LexerState.initial text.toList).offset) last
    (haveCounterparts_of_respellText hv hw h hyields)
  obtain ⟨back, hback⟩ := exists_respellText hw hv hothers hcounterpart
  obtain ⟨hbackChars, _⟩ := toList_of_respellText hw hv hothers
    (congrArg LexerState.offset hinitial) (by rw [hinitial, hchars]) hback
  refine ⟨back, hback, String.toList_inj.mp ?_⟩
  rw [hbackChars, hweave, hyields.weave_eq, ← htext]

/-- A text that comes back as it was has pieces that keep their ends and kinds. -/
theorem kept_of_back (hnamesSource : v.SpellsNames) (hnames : w.SpellsNames) {back : Respelled}
    (hback : d.respellText destination source out.text = .ok back) (hsame : back.text = text) :
    Kept v w Context.initial pieces last := by
  obtain ⟨line, _, htext, hchars, hinitial⟩ := exists_line_of_respellText hv hw h hyields hnames
  obtain ⟨_, _, _, _, hw', _, htokens, _⟩ := respellText_eq_ok_iff.mp hback
  cases hw.symm.trans hw'
  obtain ⟨others, other, hothers, _⟩ := tokenize_eq_ok_iff.mp htokens
  obtain ⟨hbackChars, _, hcounterpart⟩ := toList_of_respellText hw hv hothers
    (congrArg LexerState.offset hinitial) (by rw [hinitial, hchars]) hback
  rw [hsame, htext] at hbackChars
  rw [hinitial] at hothers
  exact hyields.kept_of_back hothers (Context.Matches.initial v w) rfl
    (List.append_cancel_left hbackChars).symm hnamesSource hnames
    (haveCounterparts_of_respellText hv hw h hyields) hcounterpart

end Dictionary

/-- A text comes back as it was, when it is respelled and respelled back, exactly when no word of it
becomes a keyword on the way and no new spelling lengthens a numeral. -/
theorem respellText_back_iff {d : Dictionary} {source destination text : String} {out : Respelled}
    {tokens : List Token} {sourcePath sourceDocument path document : String}
    (hsource : (Vocabulary.ofDocument source sourcePath sourceDocument).result = .ok v)
    (hdestination : (Vocabulary.ofDocument destination path document).result = .ok w)
    (hv : d.get source = .ok v) (hw : d.get destination = .ok w)
    (h : d.respellText source destination text = .ok out) (htokens : tokenize v text = .ok tokens) :
    (∃ back, d.respellText destination source out.text = .ok back ∧ back.text = text) ↔
      ¬ Collides w tokens ∧ ¬ Lengthens v w text.toList tokens := by
  have hnamesSource := Vocabulary.spellsNames_of_ofDocument hsource
  have hnames := Vocabulary.spellsNames_of_ofDocument hdestination
  obtain ⟨pieces, last, hyields, rfl⟩ := tokenize_eq_ok_iff.mp htokens
  obtain ⟨line, hoffset, htext, _⟩ := LexerState.initial_eq text.toList
  constructor
  · rintro ⟨back, hback, hsame⟩
    have hkept := kept_iff.mp
      (Dictionary.kept_of_back hv hw h hyields hnamesSource hnames hback hsame)
    constructor
    · rintro ⟨front, t, back, hsplit, hword, hproperty, hspelling⟩
      obtain ⟨xs, ys, hpieces, rfl, hys⟩ := List.map_eq_append_iff.mp hsplit
      obtain ⟨p, zs, rfl, rfl, rfl⟩ := List.map_eq_cons_iff.mp hys
      have hfree := (hkept xs p zs hpieces).1 hword hproperty
      rw [hspelling] at hfree
      cases hfree
    · rintro ⟨front, t, u, back, hsplit, ht, hu, _, hnumeral⟩
      obtain ⟨xs, ys, rfl, rfl, hys⟩ := List.map_eq_append_iff.mp hsplit
      obtain ⟨p, zs, rfl, rfl, hzs⟩ := List.map_eq_cons_iff.mp hys
      refine hnumeral ?_
      rw [← hzs, htext, hyields.splice_behind hoffset]
      exact (hkept xs p zs rfl).2 ht
  · rintro ⟨hfree, hnumerals⟩
    refine Dictionary.exists_back hv hw h hyields hnames ?_
    refine hyields.kept rfl hnames (Dictionary.haveCounterparts_of_respellText hv hw h hyields)
      hfree fun front p q back hsplit hp hq hgap => ?_
    subst hsplit
    by_contra hnumeral
    refine hnumerals ⟨front.map Piece.token, p.token, q.token, back.map Piece.token, by simp, hp,
      hq, ?_, ?_⟩
    · rw [hyields.start_eq, hgap, byteLength_nil, Nat.add_zero]
    · rw [← List.map_cons, htext, hyields.splice_behind hoffset]
      exact hnumeral

/-- A keyword that touches a numeral without lengthening it comes back. -/
theorem respellText_back_touching :
    let plain : Vocabulary := ⟨"plain", ⟨[("if", "if")], List.pairwise_singleton _ _⟩,
      List.pairwise_singleton _ _⟩
    let long : Vocabulary := ⟨"long", ⟨[("if", "whenever")], List.pairwise_singleton _ _⟩,
      List.pairwise_singleton _ _⟩
    let d := (Dictionary.empty.insert plain).insert long
    let out : Respelled := ⟨"1whenever", [⟨"if", "whenever", 1, 3, 0⟩], 2, 6⟩
    d.respellText "plain" "long" "1if" = .ok out ∧
      ∃ back, d.respellText "long" "plain" out.text = .ok back ∧ back.text = "1if" := by
  intro plain long d out
  have hsource : (Vocabulary.ofDocument "plain" "plain.json"
      "\x7b\x22if\x22: \x22if\x22\x7d").result = .ok plain := by decide +kernel
  have hdestination : (Vocabulary.ofDocument "long" "long.json"
      "\x7b\x22if\x22: \x22whenever\x22\x7d").result = .ok long := by decide +kernel
  have hplain : d.get "plain" = .ok plain := by decide +kernel
  have hlong : d.get "long" = .ok long := by decide +kernel
  have hout : d.respellText "plain" "long" "1if" = .ok out := by decide +kernel
  have htokens : tokenize plain "1if" = .ok [⟨.numeric, "1", 0⟩, ⟨.keyword, "if", 1⟩] := by
    decide +kernel
  refine ⟨hout, (respellText_back_iff hsource hdestination hplain hlong hout htokens).mpr
    ⟨not_collides (by decide +kernel), ?_⟩⟩
  rintro ⟨front, t, u, back, hsplit, _, _, _, hnumeral⟩
  cases front with
  | nil =>
      cases hsplit
      exact hnumeral (by decide +kernel)
  | cons x front =>
      have hlength := congrArg List.length hsplit
      simp at hlength
      omega

/-- A word that is a spelling of the destination alone comes back as another keyword, though both
vocabularies are read from documents and have the same keywords. -/
theorem respellText_back_ne :
    let plain : Vocabulary := ⟨"plain", ⟨[("if", "if")], List.pairwise_singleton _ _⟩,
      List.pairwise_singleton _ _⟩
    let long : Vocabulary := ⟨"long", ⟨[("if", "whenever")], List.pairwise_singleton _ _⟩,
      List.pairwise_singleton _ _⟩
    let d := (Dictionary.empty.insert plain).insert long
    let out : Respelled := ⟨"whenever", [], 1, 0⟩
    (Vocabulary.ofDocument "plain" "plain.json" "\x7b\x22if\x22: \x22if\x22\x7d").result =
        .ok plain ∧
      (Vocabulary.ofDocument "long" "long.json" "\x7b\x22if\x22: \x22whenever\x22\x7d").result =
        .ok long ∧
      plain.keywords.keys = long.keywords.keys ∧
      d.respellText "plain" "long" "whenever" = .ok out ∧
      ¬ ∃ back, d.respellText "long" "plain" out.text = .ok back ∧ back.text = "whenever" := by
  intro plain long d out
  refine ⟨by decide +kernel, by decide +kernel, rfl, by decide +kernel, ?_⟩
  rintro ⟨back, hback, htext⟩
  have hif : d.respellText "long" "plain" out.text =
      .ok ⟨"if", [⟨"whenever", "if", 0, 8, 0⟩], 1, -6⟩ := by decide +kernel
  cases hback.symm.trans hif
  revert htext
  decide

end Respell
