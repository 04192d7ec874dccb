import Respell.Proofs.Text.Bytes
import Respell.Proofs.Token.Again
import Respell.Proofs.Token.Tiling
import Respell.Proofs.Vocabulary.Pairs

/-!
# Spellings that can be read

A spelling that is no name is never found in a text. Two vocabularies that say the same of all names
split every text alike: `next_congr` states this of one step of the lexer, and `tokenize_congr` of a
whole text. So the keywords whose spellings are no names may be left out of a vocabulary, while each
of the others is read as a keyword where its spelling is the whole text.
-/

namespace Respell

open Text

namespace Vocabulary

/-- The vocabularies give a name the same canonical name, or none. -/
def AgreeOnNames (v w : Vocabulary) : Prop :=
  ∀ word : String, Identifier.isName word.toList = true → v.canonical? word = w.canonical? word

/-- The vocabulary without the keywords whose spellings are no names. -/
def readable (v : Vocabulary) : Vocabulary where
  name := v.name
  keywords :=
    ⟨v.pairs.filter fun e => Identifier.isName e.2.toList, v.keywords.ascending.filter _⟩
  distinct := v.distinct.sublist (List.filter_sublist.map _)

variable {v w : Vocabulary}

/-- The pairs that are left are those whose spellings are names. -/
theorem pairs_readable (v : Vocabulary) :
    v.readable.pairs = v.pairs.filter fun e => Identifier.isName e.2.toList :=
  rfl

/-- The pairs that are left make up the vocabulary that is left. -/
theorem ofPairs_readable (v : Vocabulary) :
    ofPairs v.name (v.pairs.filter fun e => Identifier.isName e.2.toList) = .ok v.readable :=
  ofPairs_eq_ok_iff.mpr ⟨rfl, (SortedMap.ofList_entries v.readable.keywords).symm⟩

/-- Of a name nothing is left out. -/
theorem agreeOnNames_readable (v : Vocabulary) : v.AgreeOnNames v.readable := by
  intro word hname
  refine Option.ext fun canonical => ?_
  rw [canonical?_eq_some_iff_mem, canonical?_eq_some_iff_mem, pairs_readable, List.mem_filter]
  exact (and_iff_left hname).symm

/-- Vocabularies that agree on names have the same spellings among them. -/
theorem AgreeOnNames.isSpelling (h : v.AgreeOnNames w) {word : String}
    (hname : Identifier.isName word.toList = true) : v.isSpelling word = w.isSpelling word := by
  rw [Bool.eq_iff_iff, isSpelling_iff, isSpelling_iff, h word hname]

end Vocabulary

variable {v w : Vocabulary}

namespace Lexeme

variable {ctx other : Context} {c : Char} {rest : List Char} {l : Lexeme}

/-- A token is read alike under vocabularies that agree on names. -/
theorem read_congr (h : v.AgreeOnNames w) (hctx : ctx.Matches v w other) :
    read v ctx c rest = read w other c rest := by
  rw [read_eq_readForm, read_eq_readForm,
    form_congr (hctx.agreesAt c) (fun _ => rfl) (fun _ => rfl) fun _ => Iff.rfl]
  cases hform : form v ctx c rest.head? with
  | word =>
      rw [readForm, readForm, word, word]
      cases hscan : Word.scan (c :: rest) with
      | error before => rfl
      | ok scanned =>
          -- Only a word without an escape is looked up, and such a word is a name.
          have hkind : wordKind v ctx scanned.escaped (String.ofList scanned.text) =
              wordKind w other scanned.escaped (String.ofList scanned.text) := by
            refine wordKind_eq hctx.namesProperty fun hplain _ => h.isSpelling ?_
            rw [String.toList_ofList]
            exact isName_of_scan hform hscan hplain
          dsimp only
          rw [hkind]
  | string | template | privateName | numeral | regex | punctuator => rfl

/-- A token plays the same part under vocabularies that agree on names. -/
theorem matches_token (h : v.AgreeOnNames w) (hread : read v ctx c rest = .ok l) (start : Nat) :
    (l.token start).Matches v w (l.token start) where
  kind := rfl
  text _ := rfl
  canonical := by
    rw [Token.canonical?, Token.canonical?]
    split
    · rename_i hkind
      refine h _ ?_
      rw [token_text, String.toList_ofList]
      exact (isName_of_read_keyword hread hkind).1
    · rfl

end Lexeme

namespace LexerState

/-- The states have come equally far with the same tokens, and these play the same parts. -/
structure Parallel (v w : Vocabulary) (s t : LexerState) : Prop where
  context : s.context.Matches v w t.context
  before : s.context.before = t.context.before
  offset : s.offset = t.offset
  rest : s.rest = t.rest

variable {s t : LexerState}

/-- States that have come equally far fail alike, end alike, or find the same token. -/
theorem next_congr (h : v.AgreeOnNames w) (hst : Parallel v w s t) :
    (∃ e, s.next v = .error e ∧ t.next w = .error e) ∨
    (s.next v = .ok none ∧ t.next w = .ok none) ∨
    ∃ s' t', s.next v = .ok (some s') ∧ t.next w = .ok (some t') ∧ Parallel v w s' t' := by
  rw [next, next, ← hst.rest, ← hst.offset]
  cases hskip : Trivia.skip s.rest with
  | error gap => exact Or.inl ⟨_, rfl, rfl⟩
  | ok skipped =>
      obtain ⟨gap, after⟩ := skipped
      cases after with
      | nil => exact Or.inr (Or.inl ⟨rfl, rfl⟩)
      | cons c rest =>
          dsimp only
          rw [← Lexeme.read_congr h hst.context]
          cases hread : Lexeme.read v s.context c rest with
          | error e => exact Or.inl ⟨_, rfl, rfl⟩
          | ok l =>
              refine Or.inr (Or.inr ⟨_, _, rfl, rfl, ?_, ?_, rfl, rfl⟩)
              · exact hst.context.push (Lexeme.matches_token h hread _)
              · exact congrArg (List.cons _) hst.before

/-- States that have come equally far find the same tokens or the same fault. -/
theorem run_congr (h : v.AgreeOnNames w) (hst : Parallel v w s t) : s.run v = t.run w := by
  fun_induction run v s generalizing t with
  | case1 s e hnext =>
      rcases next_congr h hst with ⟨_, hs, ht⟩ | ⟨hs, _⟩ | ⟨_, _, hs, _⟩
      · cases hnext.symm.trans hs
        rw [run_eq, ht]
      · cases hnext.symm.trans hs
      · cases hnext.symm.trans hs
  | case2 s hnext =>
      rcases next_congr h hst with ⟨_, hs, _⟩ | ⟨_, ht⟩ | ⟨_, _, hs, _⟩
      · cases hnext.symm.trans hs
      · rw [run_eq, ht, hst.before]
      · cases hnext.symm.trans hs
  | case3 s s' hnext ih =>
      rcases next_congr h hst with ⟨_, hs, _⟩ | ⟨hs, _⟩ | ⟨_, t', hs, ht, hst'⟩
      · cases hnext.symm.trans hs
      · cases hnext.symm.trans hs
      · cases hnext.symm.trans hs
        rw [run_eq w t, ht]
        exact ih hst'

end LexerState

/-- Vocabularies that agree on names split every text alike. -/
theorem tokenize_congr (h : v.AgreeOnNames w) (text : String) :
    tokenize v text = tokenize w text := by
  have hinitial : LexerState.Parallel v w (LexerState.initial text.toList)
      (LexerState.initial text.toList) := ⟨.initial v w, rfl, rfl, rfl⟩
  rw [tokenize, tokenize, LexerState.run_congr h hinitial]

section

variable {text word : String} {tokens : List Token} {t : Token}

/-- The keywords of a text are names. -/
theorem isName_of_tokenize (h : tokenize v text = .ok tokens) (ht : t ∈ tokens)
    (hkind : t.kind = .keyword) : Identifier.isName t.chars = true := by
  obtain ⟨pieces, last, hyields, rfl⟩ := tokenize_eq_ok_iff.mp h
  obtain ⟨p, hp, rfl⟩ := List.mem_map.mp ht
  exact (hyields.isName_of_keyword hp hkind).1

/-- A token that takes the whole range of a text is the text. -/
theorem chars_of_whole (h : tokenize v text = .ok tokens) (ht : t ∈ tokens) (hstart : t.start = 0)
    (hstop : t.stop = text.utf8ByteSize) : t.chars = text.toList := by
  obtain ⟨pieces, last, hyields, rfl⟩ := tokenize_eq_ok_iff.mp h
  obtain ⟨p, hp, rfl⟩ := List.mem_map.mp ht
  obtain ⟨line, hoffset, htext, _⟩ := LexerState.initial_eq text.toList
  obtain ⟨before, after, hsplit, hbefore, hbehind⟩ := hyields.located hoffset hp
  rw [← htext] at hsplit
  have hlength := byteLength_toList text
  rw [hsplit, byteLength_append, byteLength_append] at hlength
  rw [byteLength_append] at hbehind
  have hfront : before = [] := byteLength_eq_zero_iff.mp (by omega)
  have hback : after = [] := byteLength_eq_zero_iff.mp (by omega)
  rw [hsplit, hfront, hback, List.nil_append, List.append_nil]

/-- No blank, no comment and no first line begins with a character that begins a name. -/
theorem Trivia.stops_of_isStart {c : Char} (h : Identifier.isStart c = true) (rest : List Char) :
    Stops (c :: rest) ∧ IsFirstLine [] (c :: rest) := by
  have hne : ∀ d : Char, Identifier.isStart d = false → (d == c) = false := fun d hd =>
    beq_eq_false_iff_ne.mpr (Identifier.ne_of_isStart h hd).symm
  refine ⟨⟨Identifier.isBlank_eq_false_of_isStart h, ?_, ?_⟩, .absent fun hmark => ?_⟩
  · simp [beginsLineComment, List.isPrefixOf, hne '/' rfl, hne '<' rfl]
  · simp [beginsBlockComment, List.isPrefixOf, hne '/' rfl]
  · exact absurd (List.cons_prefix_cons.mp hmark).1.symm (Identifier.ne_of_isStart h rfl)

/-- A name that is a spelling is, as a text, one keyword. -/
theorem tokenize_of_isName (hname : Identifier.isName word.toList = true)
    (h : v.isSpelling word = true) : tokenize v word = .ok [⟨.keyword, word, 0⟩] := by
  obtain ⟨c, rest, htext, hstart⟩ := Identifier.exists_cons_of_isName hname
  obtain ⟨hstops, hline⟩ := Trivia.stops_of_isStart hstart rest
  rw [← htext] at hstops hline
  have hinitial : LexerState.initial word.toList = ⟨Context.initial, 0, word.toList⟩ := by
    rw [LexerState.initial, Trivia.skipShebang_eq_iff.mpr ⟨(List.nil_append _).symm, hline⟩]
    rfl
  obtain ⟨d, more, happend, hread⟩ : ∃ d more, word.toList ++ [] = d :: more ∧
      Lexeme.read v Context.initial d more = .ok ⟨.keyword, word.toList, []⟩ :=
    Lexeme.read_spelling rfl hname (by rwa [String.ofList_toList]) rfl
  rw [List.append_nil] at happend
  have hskip : Trivia.skip word.toList = .ok ([], d :: more) := by
    rw [Trivia.skip_of_stops hstops, happend]
  have hyields := LexerState.Yields.token (s := ⟨Context.initial, 0, word.toList⟩) hskip hread
    (.done (Trivia.skip_of_stops ⟨rfl, rfl, rfl⟩))
  rw [Lexeme.token, String.ofList_toList] at hyields
  refine tokenize_eq_ok_iff.mpr ⟨[⟨[], ⟨.keyword, word, 0⟩⟩], [], ?_, rfl⟩
  rw [hinitial]
  exact hyields

end

/-- Documents keep exactly the spellings that can be found. A spelling is a name exactly when it is,
as a text, one keyword from its beginning to its end, and exactly when it is a keyword of some text.
A vocabulary without all other spellings is one with which every text is split as before, into the
same tokens or with the same error. -/
theorem tokenize_readable (v : Vocabulary) {word : String} (h : v.isSpelling word = true) :
    ((∃ t, tokenize v word = .ok [t] ∧ t.kind = .keyword ∧ t.start = 0 ∧
      t.stop = word.utf8ByteSize) ↔ Identifier.isName word.toList = true) ∧
    ((∃ text tokens t, tokenize v text = .ok tokens ∧ t ∈ tokens ∧ t.kind = .keyword ∧
      t.text = word) ↔ Identifier.isName word.toList = true) ∧
    Vocabulary.ofPairs v.name (v.pairs.filter fun e => Identifier.isName e.2.toList) =
      .ok v.readable ∧
    ∀ text, tokenize v text = tokenize v.readable text := by
  refine ⟨⟨?_, fun hname => ?_⟩, ⟨?_, fun hname => ?_⟩, v.ofPairs_readable,
    tokenize_congr v.agreeOnNames_readable⟩
  · rintro ⟨t, htokens, hkind, hstart, hstop⟩
    have hname := isName_of_tokenize htokens List.mem_cons_self hkind
    rwa [chars_of_whole htokens List.mem_cons_self hstart hstop] at hname
  · exact ⟨_, tokenize_of_isName hname h, rfl, rfl, Nat.zero_add _⟩
  · rintro ⟨text, tokens, t, htokens, ht, hkind, rfl⟩
    exact isName_of_tokenize htokens ht hkind
  · exact ⟨word, _, _, tokenize_of_isName hname h, List.mem_cons_self, rfl, rfl⟩

/-- Of three spellings only one is a name and is read as a keyword. No text has a keyword with a
blank in it, nor one that is written with an escape, so both may be left out. -/
theorem tokenize_readable_escape :
    ∃ v, Vocabulary.ofPairs "odd" [("do", "a b"), ("for", "\\u0069f"), ("if", "if")] = .ok v ∧
      (∃ t, tokenize v "if" = .ok [t] ∧ t.kind = .keyword ∧ t.start = 0 ∧ t.stop = 2) ∧
      (¬ ∃ text tokens t, tokenize v text = .ok tokens ∧ t ∈ tokens ∧ t.kind = .keyword ∧
        t.text = "a b") ∧
      (¬ ∃ text tokens t, tokenize v text = .ok tokens ∧ t ∈ tokens ∧ t.kind = .keyword ∧
        t.text = "\\u0069f") ∧
      Vocabulary.ofPairs "odd" [("if", "if")] = .ok v.readable ∧
      ∀ text, tokenize v text = tokenize v.readable text := by
  let v : Vocabulary :=
    ⟨"odd", ⟨[("do", "a b"), ("for", "\\u0069f"), ("if", "if")], by decide⟩, by decide⟩
  have hv : Vocabulary.ofPairs "odd" v.pairs = .ok v := by decide +kernel
  have hspellings : v.isSpelling "if" = true ∧ v.isSpelling "a b" = true ∧
      v.isSpelling "\\u0069f" = true := by decide
  obtain ⟨hwhole, _, hreadable, hsame⟩ := tokenize_readable v hspellings.1
  obtain ⟨_, hblank, _⟩ := tokenize_readable v hspellings.2.1
  obtain ⟨_, hescape, _⟩ := tokenize_readable v hspellings.2.2
  refine ⟨v, hv, hwhole.mpr (by decide +kernel), mt hblank.mp (by decide +kernel),
    mt hescape.mp (by decide +kernel), ?_, hsame⟩
  rw [← hreadable]
  decide +kernel

end Respell
