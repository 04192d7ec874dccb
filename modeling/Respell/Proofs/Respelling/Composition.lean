import Respell.Proofs.Respelling.Splice
import Respell.Proofs.Respelling.Structure

/-!
# Respelling in several steps

A keyword that is respelled keeps its canonical name, so a third vocabulary spells the new spelling
as it spells the old one. `hasCounterpart_renewed_iff` and `respelledChars_renewed` state this of a
token, and the lemmas on pieces carry it over a text. `respellText_self_and_through` draws the two
conclusions for whole texts: a text that is respelled to the vocabulary it is written in stays as it
is, and a text that is respelled by way of another vocabulary becomes what it becomes at once, where
the text in between has the structure of the first one.
-/

namespace Respell

open Text

variable {u v w : Vocabulary}

/-- In its new spelling a keyword has a counterpart exactly when it had one. -/
theorem Token.hasCounterpart_renewed_iff {t : Token} (start : Nat) (hkind : t.kind = .keyword)
    (h : t.HasCounterpart v w) :
    (t.renewed v w start).HasCounterpart w u ↔ t.HasCounterpart v u := by
  obtain ⟨canonical, hold, hnew⟩ := h.canonical hkind
  have hnew : w.canonical? (t.renewed v w start).text = some canonical := hnew
  rw [Token.HasCounterpart, Token.HasCounterpart, hold, hnew]

/-- A keyword that has a counterpart is a spelling. -/
theorem Token.HasCounterpart.isSpelling {t : Token} (h : t.HasCounterpart v w) :
    v.isSpelling t.text = true := by
  obtain ⟨canonical, _, hcanonical, _⟩ := h
  exact Vocabulary.isSpelling_iff.mpr ⟨canonical, hcanonical⟩

/-- A keyword that is a spelling is its own counterpart. -/
theorem Token.hasCounterpart_self {t : Token} (h : v.isSpelling t.text = true) :
    t.HasCounterpart v v := by
  obtain ⟨canonical, hcanonical⟩ := Vocabulary.isSpelling_iff.mp h
  exact ⟨canonical, t.text, hcanonical, Vocabulary.canonical?_eq_some_iff.mp hcanonical⟩

/-- In the vocabulary it is written in, a token is spelled as it is. -/
theorem Token.respelledChars_self {t : Token} (h : t.kind = .keyword → v.isSpelling t.text = true) :
    t.respelledChars v v = t.chars := by
  by_cases hkind : t.kind = .keyword
  · obtain ⟨canonical, hcanonical⟩ := Vocabulary.isSpelling_iff.mp (h hkind)
    have hspelling := Vocabulary.canonical?_eq_some_iff.mp hcanonical
    rw [Token.respelledChars, Token.respelled_of_counterpart hkind hcanonical hspelling, Token.chars]
  · exact Token.respelledChars_of_ne_keyword hkind

/-- A third vocabulary spells a token in its new spelling as it spells the token. -/
theorem Token.respelledChars_renewed {t : Token} (start : Nat)
    (h : t.kind = .keyword → t.HasCounterpart v w) (hu : t.kind = .keyword → t.HasCounterpart v u) :
    (t.renewed v w start).respelledChars w u = t.respelledChars v u := by
  by_cases hkind : t.kind = .keyword
  · obtain ⟨canonical, hold, hnew⟩ := (h hkind).canonical hkind
    obtain ⟨canonical', spelling, hold', hspelling⟩ := hu hkind
    obtain rfl : canonical = canonical' := Option.some.inj (hold.symm.trans hold')
    have hrenewed : (t.renewed v w start).respelled w u = spelling :=
      Token.respelled_of_counterpart hkind hnew hspelling
    rw [Token.respelledChars, Token.respelledChars, hrenewed,
      Token.respelled_of_counterpart hkind hold hspelling]
  · have hrenewed : (t.renewed v w start).kind ≠ .keyword := hkind
    rw [Token.respelledChars_of_ne_keyword hrenewed, Token.renewed_chars,
      Token.respelledChars_of_ne_keyword hkind, Token.respelledChars_of_ne_keyword hkind]

namespace Piece

variable {pieces : List Piece}

/-- The keywords of the pieces in their new spelling have counterparts exactly when they had. -/
theorem haveCounterparts_renewed_iff {n : Nat} (h : HaveCounterparts v w pieces) :
    HaveCounterparts w u (renewed v w n pieces) ↔ HaveCounterparts v u pieces := by
  induction pieces generalizing n with
  | nil => exact iff_of_true (List.forall_mem_nil _) (List.forall_mem_nil _)
  | cons p pieces ih =>
      obtain ⟨hp, hpieces⟩ := haveCounterparts_cons.mp h
      rw [renewed, haveCounterparts_cons, haveCounterparts_cons, ih hpieces]
      refine and_congr (forall_congr' fun hkind => ?_) Iff.rfl
      exact Token.hasCounterpart_renewed_iff _ hkind (hp hkind)

/-- Written in a third vocabulary, the pieces in their new spelling are what the pieces are. -/
theorem weave_renewed {n : Nat} (last : List Char) (h : HaveCounterparts v w pieces)
    (hu : HaveCounterparts v u pieces) :
    weave (Token.respelledChars w u) (renewed v w n pieces) last =
      weave (Token.respelledChars v u) pieces last := by
  induction pieces generalizing n with
  | nil => rfl
  | cons p pieces ih =>
      obtain ⟨hp, hpieces⟩ := haveCounterparts_cons.mp h
      obtain ⟨hpu, hpiecesu⟩ := haveCounterparts_cons.mp hu
      rw [renewed, weave, weave, ih hpieces hpiecesu, Token.respelledChars_renewed _ hp hpu]

/-- The pieces of a text have counterparts in the vocabulary they are written in. -/
theorem haveCounterparts_self
    (h : ∀ p ∈ pieces, p.token.kind = .keyword → v.isSpelling p.token.text = true) :
    HaveCounterparts v v pieces :=
  fun p hp hkind => Token.hasCounterpart_self (h p hp hkind)

/-- Written in their own vocabulary, the pieces are what they are. -/
theorem weave_self (last : List Char)
    (h : ∀ p ∈ pieces, p.token.kind = .keyword → v.isSpelling p.token.text = true) :
    weave (Token.respelledChars v v) pieces last = weave Token.chars pieces last := by
  induction pieces with
  | nil => rfl
  | cons p pieces ih =>
      obtain ⟨hp, hpieces⟩ := List.forall_mem_cons.mp h
      rw [weave, weave, ih hpieces, Token.respelledChars_self hp]

/-- Keywords that have counterparts are spellings. -/
theorem HaveCounterparts.isSpelling (h : HaveCounterparts v w pieces) :
    ∀ p ∈ pieces, p.token.kind = .keyword → v.isSpelling p.token.text = true :=
  fun p hp hkind => (h p hp hkind).isSpelling

end Piece

namespace Dictionary

variable {d : Dictionary} {source between destination text : String} {mid : Respelled}
  {pieces : List Piece} {last : List Char}

/-- A text that consists of tokens is respelled to its own vocabulary as it is. -/
theorem exists_respellText_self (hv : d.get source = .ok v)
    (hyields : LexerState.Yields v (.initial text.toList) pieces last) :
    ∃ out, d.respellText source source text = .ok out ∧ out.text = text := by
  have hkeywords : ∀ p ∈ pieces, p.token.kind = .keyword → v.isSpelling p.token.text = true :=
    fun p hp hkind => (hyields.isName_of_keyword hp hkind).2
  obtain ⟨out, hout⟩ :=
    exists_respellText hv hv hyields (Piece.haveCounterparts_self hkeywords)
  obtain ⟨line, hoffset, htext, _⟩ := LexerState.initial_eq text.toList
  obtain ⟨hchars, _⟩ := toList_of_respellText hv hv hyields hoffset htext hout
  refine ⟨out, hout, String.toList_inj.mp ?_⟩
  rw [hchars, Piece.weave_self last hkeywords, hyields.weave_eq, ← htext]

variable (hv : d.get source = .ok v) (hw : d.get between = .ok w)
  (h : d.respellText source between text = .ok mid)
  (hyields : LexerState.Yields v (.initial text.toList) pieces last)
  (hnames : w.SpellsNames) (hkept : Kept v w Context.initial pieces last)

include hv hw h hyields hnames hkept

/-- The text in between is respelled exactly when the text itself is. -/
theorem exists_respellText_through_iff :
    (∃ out, d.respellText between destination mid.text = .ok out) ↔
      ∃ out, d.respellText source destination text = .ok out := by
  have hothers := yields_respellText hv hw h hyields hnames hkept
  have hcounterpart := haveCounterparts_of_respellText hv hw h hyields
  constructor
  · rintro ⟨out, hout⟩
    obtain ⟨_, u, _, _, _, hu, _⟩ := respellText_eq_ok_iff.mp hout
    have hrenewed := haveCounterparts_of_respellText hw hu hout hothers
    exact exists_respellText hv hu hyields
      ((Piece.haveCounterparts_renewed_iff hcounterpart).mp hrenewed)
  · rintro ⟨out, hout⟩
    obtain ⟨_, u, _, _, _, hu, _⟩ := respellText_eq_ok_iff.mp hout
    have hdirect := haveCounterparts_of_respellText hv hu hout hyields
    exact exists_respellText hw hu hothers
      ((Piece.haveCounterparts_renewed_iff hcounterpart).mpr hdirect)

/-- The text in between becomes what the text itself becomes. -/
theorem respellText_through {out other : Respelled}
    (hout : d.respellText between destination mid.text = .ok out)
    (hother : d.respellText source destination text = .ok other) : out.text = other.text := by
  obtain ⟨_, u, _, _, _, hu, _⟩ := respellText_eq_ok_iff.mp hout
  obtain ⟨line, hoffset, htext, hchars, hinitial⟩ :=
    exists_line_of_respellText hv hw h hyields hnames
  have hothers := yields_respellText hv hw h hyields hnames hkept
  obtain ⟨houtChars, _⟩ := toList_of_respellText hw hu hothers
    (congrArg LexerState.offset hinitial) (by rw [hinitial, hchars]) hout
  obtain ⟨hotherChars, _, hdirect⟩ := toList_of_respellText hv hu hyields hoffset htext hother
  refine String.toList_inj.mp ?_
  rw [houtChars, hotherChars,
    Piece.weave_renewed last (haveCounterparts_of_respellText hv hw h hyields) hdirect]

end Dictionary

/-- Respelling to the vocabulary that a text is written in leaves the text as it is. Respelling by
way of another vocabulary succeeds exactly when respelling at once does, with the same text, where
that vocabulary spells names, no word of the text is a spelling of it and no keyword touches a
numeral. -/
theorem respellText_self_and_through (d : Dictionary) :
    (∀ (subset text : String) (v : Vocabulary) (tokens : List Token),
      d.get subset = .ok v → tokenize v text = .ok tokens →
      ∃ out, d.respellText subset subset text = .ok out ∧ out.text = text) ∧
    ∀ (source between destination text : String) (v w : Vocabulary) (mid : Respelled)
      (tokens : List Token), d.get source = .ok v → d.get between = .ok w →
      d.respellText source between text = .ok mid → tokenize v text = .ok tokens →
      w.SpellsNames → ¬ Collides w tokens → ¬ Touches tokens →
      ((∃ out, d.respellText between destination mid.text = .ok out) ↔
        ∃ out, d.respellText source destination text = .ok out) ∧
      ∀ out other, d.respellText between destination mid.text = .ok out →
        d.respellText source destination text = .ok other → out.text = other.text := by
  constructor
  · intro subset text v tokens hv htokens
    obtain ⟨pieces, last, hyields, _⟩ := tokenize_eq_ok_iff.mp htokens
    exact Dictionary.exists_respellText_self hv hyields
  · intro source between destination text v w mid tokens hv hw h htokens hnames hfree hapart
    obtain ⟨pieces, last, hyields, rfl⟩ := tokenize_eq_ok_iff.mp htokens
    have hcounterpart := Dictionary.haveCounterparts_of_respellText hv hw h hyields
    have hkept := hyields.kept_of_not_touches rfl hnames hcounterpart hfree hapart
    exact ⟨Dictionary.exists_respellText_through_iff hv hw h hyields hnames hkept,
      fun out other => Dictionary.respellText_through hv hw h hyields hnames hkept⟩

/-- A text of two keywords is respelled to itself, and by way of a vocabulary whose spellings are
longer and shorter to a third one. -/
theorem respellText_through_greek :
    let text := "if(o.if/2)return/x/"
    let plain : Vocabulary :=
      ⟨"plain", ⟨[("if", "if"), ("return", "return")], by decide⟩, by decide⟩
    let greek : Vocabulary :=
      ⟨"greek", ⟨[("if", "whenever"), ("return", "ε")], by decide⟩, by decide⟩
    let short : Vocabulary := ⟨"short", ⟨[("if", "i"), ("return", "r")], by decide⟩, by decide⟩
    let d := ((Dictionary.empty.insert plain).insert greek).insert short
    let mid : Respelled := ⟨"whenever(o.if/2)ε/x/",
      [⟨"if", "whenever", 0, 2, 0⟩, ⟨"return", "ε", 16, 22, 6⟩], 10, 2⟩
    (∃ out, d.respellText "plain" "plain" text = .ok out ∧ out.text = text) ∧
      d.respellText "plain" "greek" text = .ok mid ∧
      ∃ out other, d.respellText "greek" "short" mid.text = .ok out ∧
        d.respellText "plain" "short" text = .ok other ∧ out.text = other.text := by
  intro text plain greek short d mid
  let tokens : List Token := [⟨.keyword, "if", 0⟩, ⟨.punctuator, "(", 2⟩, ⟨.identifier, "o", 3⟩,
    ⟨.punctuator, ".", 4⟩, ⟨.identifier, "if", 5⟩, ⟨.punctuator, "/", 7⟩, ⟨.numeric, "2", 8⟩,
    ⟨.punctuator, ")", 9⟩, ⟨.keyword, "return", 10⟩, ⟨.regex, "/x/", 16⟩]
  have hplain : d.get "plain" = .ok plain := by decide +kernel
  have hgreek : d.get "greek" = .ok greek := by decide +kernel
  have htokens : tokenize plain text = .ok tokens := by decide +kernel
  have hmid : d.respellText "plain" "greek" text = .ok mid := by decide +kernel
  have hnames : greek.SpellsNames := by decide +kernel
  have hfree : ¬ Collides greek tokens := not_collides (by decide +kernel)
  have hapart : ¬ Touches tokens := by decide +kernel
  obtain ⟨hself, hthrough⟩ := respellText_self_and_through d
  obtain ⟨hiff, heq⟩ := hthrough "plain" "greek" "short" text plain greek mid tokens hplain hgreek
    hmid htokens hnames hfree hapart
  have hdirect : ∃ other, d.respellText "plain" "short" text = .ok other :=
    ⟨⟨"i(o.if/2)r/x/", [⟨"if", "i", 0, 2, 0⟩, ⟨"return", "r", 9, 15, -1⟩], 10, -6⟩,
      by decide +kernel⟩
  obtain ⟨other, hother⟩ := hdirect
  obtain ⟨out, hout⟩ := hiff.mpr ⟨other, hother⟩
  exact ⟨hself "plain" text plain tokens hplain htokens, hmid, out, other, hout, hother,
    heq out other hout hother⟩

end Respell
