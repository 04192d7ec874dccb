import Mathlib.Tactic.Common
import Respell.Proofs.Token.Separated

/-!
# Tokens of another layout

What stands between the tokens of a text has no part in how they are read. `Renders` relates tokens
to every text that is written with them, with any blanks and comments between, as long as behind
each token a blank stands or the text is over. `Yields.rendered` states that such a text yields the
same tokens again, by induction on the pieces of the first text: the contexts of the two runs keep
the same structure, and a token is read again before a blank. `tokenize_rendered` is the statement
for whole texts. In particular the tokens may be written one after the other with any blanks between
them, and the texts of the tokens alone decide their kinds.
-/

namespace Respell

open Text Trivia

/-- What a token is without its place: its kind and its text. -/
def Token.content (t : Token) : TokenKind × String := (t.kind, t.text)

namespace Text

variable {gap : Nat → String}

/-- The texts one after the other, each behind the blanks of its number. -/
def indented (gap : Nat → String) (texts : List String) : String :=
  String.join (texts.mapIdx fun i text => gap i ++ text)

/-- The texts one after the other, each but the first behind the blanks of its number. -/
def spaced (gap : Nat → String) (texts : List String) : String :=
  String.join (texts.mapIdx fun i text => if i = 0 then text else gap i ++ text)

/-- The strings are not empty and consist of blanks. -/
def AreBlank (gap : Nat → String) : Prop :=
  ∀ i, gap i ≠ "" ∧ ∀ c ∈ (gap i).toList, Unicode.isBlank c = true

theorem areBlank_singleton {c : Char} (h : Unicode.isBlank c = true) :
    AreBlank fun _ => String.singleton c := by
  refine fun _ => ⟨String.singleton_ne_empty, fun d hd => ?_⟩
  rw [String.toList_singleton, List.mem_singleton] at hd
  rwa [hd]

theorem AreBlank.tail (h : AreBlank gap) : AreBlank fun i => gap (i + 1) := fun i => h (i + 1)

theorem indented_cons (gap : Nat → String) (text : String) (texts : List String) :
    indented gap (text :: texts) = gap 0 ++ (text ++ indented (fun i => gap (i + 1)) texts) := by
  rw [indented, List.mapIdx_cons, String.join_cons, String.append_assoc, indented]

theorem spaced_cons (gap : Nat → String) (text : String) (texts : List String) :
    spaced gap (text :: texts) = text ++ indented (fun i => gap (i + 1)) texts := by
  simp [spaced, indented, List.mapIdx_cons]

end Text

/-- `Renders tokens text`: the text consists of the tokens, each behind a gap, and of a last gap.
Behind every token the text is over or goes on with a blank. -/
inductive Renders : List Token → List Char → Prop where
  | done {gap : List Char} : IsGap gap [] → Renders [] gap
  | token {gap after : List Char} {t : Token} {tokens : List Token} :
      IsGap gap (t.chars ++ after) → Separates after → Renders tokens after →
      Renders (t :: tokens) (gap ++ (t.chars ++ after))

/-- Tokens of the same content play the same part in a text. -/
theorem Token.matches_of_content {v : Vocabulary} {t u : Token} (h : t.content = u.content) :
    t.Matches v v u := by
  obtain ⟨hkind, htext⟩ := Prod.mk.inj h
  refine ⟨hkind, fun _ => htext, ?_⟩
  rw [Token.canonical?, Token.canonical?, hkind, htext]

/-- Blanks are a gap before every text. -/
theorem Trivia.isGap_of_isBlank {gap after : List Char}
    (h : ∀ c ∈ gap, Unicode.isBlank c = true) : IsGap gap after := by
  induction gap with
  | nil => exact .nil
  | cons c gap ih =>
      obtain ⟨hc, hgap⟩ := List.forall_mem_cons.mp h
      exact .cons (t := [c]) (.blank (Or.inl hc)) (ih hgap)

namespace LexerState

variable {v : Vocabulary} {s t : LexerState} {pieces : List Piece} {last : List Char}

/-- A text that is written with the tokens of another one yields them again. -/
theorem Yields.rendered (h : Yields v s pieces last) (hcontext : s.context.Matches v v t.context)
    (hrest : Renders (pieces.map Piece.token) t.rest) :
    ∃ others end', Yields v t others end' ∧
      others.map (·.token.content) = pieces.map (·.token.content) := by
  induction h generalizing t with
  | done =>
      obtain ⟨context, offset, text⟩ := t
      cases hrest with
      | done hgap =>
          have hskip := skip_eq_ok_iff.mpr ⟨(List.append_nil text).symm, hgap, ⟨rfl, rfl, rfl⟩⟩
          exact ⟨[], text, .done hskip, rfl⟩
  | @token s gap rest last c l pieces hskip hread _ ih =>
      obtain ⟨context, offset, text⟩ := t
      obtain ⟨_, _, hstops⟩ := skip_eq_ok_iff.mp hskip
      obtain ⟨happend, hne⟩ := Lexeme.reads_of_read hread
      cases hrest with
      | @token gap' after _ _ hgap hafter hrendered =>
          rw [Lexeme.token_chars] at hgap ⊢
          obtain ⟨rest', htext, hread'⟩ := Lexeme.read_separated hcontext hread hafter
          have hskip' : skip (gap' ++ (l.text ++ after)) = .ok (gap', c :: rest') := by
            rw [← happend] at hstops
            rw [← htext]
            exact skip_eq_ok_iff.mpr ⟨rfl, hgap, hstops.of_separates hne hafter⟩
          -- Behind the token of the same content the contexts have the same structure.
          have hnext : (accept v s.context (s.offset + byteLength gap) l).context.Matches v v
              (accept v context (offset + byteLength gap') ⟨l.kind, l.text, after⟩).context :=
            hcontext.push (Token.matches_of_content rfl)
          obtain ⟨others, end', hyields, hcontent⟩ := ih hnext hrendered
          exact ⟨_, end', .token hskip' hread' hyields, by rw [List.map_cons, hcontent]; rfl⟩

end LexerState

/-- A first line and a text that is written with the tokens of another text split into tokens of the
same contents. -/
theorem Renders.tokenize {v : Vocabulary} {text : String} {tokens : List Token}
    {line layout : List Char} (hrendered : Renders tokens layout)
    (h : tokenize v text = .ok tokens) (hline : IsFirstLine line layout) :
    ∃ others, Respell.tokenize v (String.ofList (line ++ layout)) = .ok others ∧
      others.map Token.content = tokens.map Token.content := by
  obtain ⟨pieces, last, hyields, rfl⟩ := tokenize_eq_ok_iff.mp h
  have hinitial : LexerState.initial (line ++ layout) =
      ⟨Context.initial, byteLength line, layout⟩ := by
    rw [LexerState.initial, skipShebang_eq_iff.mpr ⟨rfl, hline⟩]
  obtain ⟨others, end', hothers, hcontent⟩ := hyields.rendered
    (t := LexerState.initial (line ++ layout)) (by rw [hinitial]; exact .initial v v)
    (by rw [hinitial]; exact hrendered)
  refine ⟨others.map Piece.token, tokenize_eq_ok_iff.mpr ⟨others, end', ?_, rfl⟩, ?_⟩
  · rw [String.toList_ofList]
    exact hothers
  · rw [List.map_map, List.map_map]
    exact hcontent

section Spaced

variable {gap : Nat → String} {tokens : List Token}

/-- Written with blanks before each of them, the tokens are rendered, and what is written is empty
or begins with a blank. -/
theorem renders_indented (hgap : AreBlank gap) :
    Renders tokens (indented gap (tokens.map Token.text)).toList ∧
      Separates (indented gap (tokens.map Token.text)).toList := by
  induction tokens generalizing gap with
  | nil => exact ⟨.done .nil, fun c hc => by cases hc⟩
  | cons t tokens ih =>
      obtain ⟨hrendered, hafter⟩ := ih hgap.tail
      obtain ⟨hne, hblank⟩ := hgap 0
      rw [List.map_cons, indented_cons, String.toList_append, String.toList_append]
      refine ⟨.token (isGap_of_isBlank hblank) hafter hrendered, fun c hc => ?_⟩
      obtain ⟨d, blanks, hd⟩ := List.exists_cons_of_ne_nil (mt String.toList_eq_nil_iff.mp hne)
      rw [hd, List.cons_append, List.head?_cons, Option.mem_some_iff] at hc
      subst hc
      rw [isBlank, hblank d (hd ▸ List.mem_cons_self), Bool.true_or]

/-- Tokens with blanks between them are rendered. -/
theorem renders_spaced (hgap : AreBlank gap) :
    Renders tokens (spaced gap (tokens.map Token.text)).toList := by
  cases tokens with
  | nil => exact .done .nil
  | cons t tokens =>
      obtain ⟨hrendered, hafter⟩ := renders_indented hgap.tail
      rw [List.map_cons, spaced_cons, String.toList_append]
      exact .token .nil hafter hrendered

end Spaced

/-- No token begins as a first line that is no part of the program does. -/
theorem Lexeme.not_isFirstLine_of_read {v : Vocabulary} {ctx : Context} {c : Char}
    {rest : List Char} {l : Lexeme} (h : read v ctx c rest = .ok l) : ¬ ['#', '!'] <+: l.text := by
  rintro ⟨more, hmore⟩
  have happend := (reads_of_read h).1
  rw [← hmore, List.append_assoc, List.cons_append] at happend
  obtain ⟨rfl, rfl⟩ := List.cons.inj happend
  have hstart : Identifier.isStart '#' = false := by decide
  have hnext : Identifier.isStart '!' = false := by decide
  have hform : form v ctx '#' (some '!') = .punctuator := by
    simp [form, hstart, hnext, singleQuote, doubleQuote, Literal.templateQuote, Char.isDigit]
  have hnone : ∀ s, Punctuator.punctuator ('#' :: '!' :: s) = none := fun _ => rfl
  rw [read_eq_readForm] at h
  rw [List.cons_append, List.head?_cons, hform, readForm, ofMatcher_eq_ok_iff, hnone] at h
  cases h.2

section

variable {v : Vocabulary} {text : String} {tokens : List Token} {gap : Nat → String}

/-- Where the tokens of a text stand with blanks between them, no first line is before them. -/
theorem isFirstLine_spaced (h : tokenize v text = .ok tokens) (hgap : AreBlank gap) :
    IsFirstLine [] (spaced gap (tokens.map Token.text)).toList := by
  obtain ⟨pieces, last, hyields, rfl⟩ := tokenize_eq_ok_iff.mp h
  refine .absent fun hbegin => ?_
  cases hyields with
  | done => cases List.prefix_nil.mp hbegin
  | @token _ _ _ _ _ l pieces _ hread =>
      obtain ⟨_, hafter⟩ :=
        (renders_indented hgap.tail : Renders (pieces.map Piece.token) _ ∧ _)
      rw [List.map_cons, List.map_cons, spaced_cons, String.toList_append] at hbegin
      have hmark := (hafter.prefix_append_iff rfl).mp hbegin
      rw [Lexeme.token_text, String.toList_ofList] at hmark
      exact Lexeme.not_isFirstLine_of_read hread hmark

/-- The tokens of a text are found again when they are written with blanks between them. -/
theorem tokenize_spaced (h : tokenize v text = .ok tokens) (hgap : AreBlank gap) :
    ∃ others, tokenize v (spaced gap (tokens.map Token.text)) = .ok others ∧
      others.map Token.content = tokens.map Token.content := by
  obtain ⟨others, hothers, hcontent⟩ :=
    (renders_spaced hgap).tokenize h (isFirstLine_spaced h hgap)
  rw [List.nil_append, String.ofList_toList] at hothers
  exact ⟨others, hothers, hcontent⟩

end

/-- The tokens of a text are found again, with their kinds and texts, in every text that is written
with them: with any blanks between them, or behind a first line with any blanks and comments between
them and a blank behind each. So the texts of the tokens alone decide their kinds. -/
theorem tokenize_rendered {v : Vocabulary} {text : String} {tokens : List Token}
    (h : tokenize v text = .ok tokens) :
    (∀ gap, AreBlank gap → ∃ others,
      tokenize v (spaced gap (tokens.map Token.text)) = .ok others ∧
        others.map Token.content = tokens.map Token.content) ∧
    (∀ line layout, IsFirstLine line layout → Renders tokens layout → ∃ others,
      tokenize v (String.ofList (line ++ layout)) = .ok others ∧
        others.map Token.content = tokens.map Token.content) ∧
    (∀ other others, tokenize v other = .ok others →
      others.map Token.text = tokens.map Token.text →
        others.map Token.kind = tokens.map Token.kind) := by
  refine ⟨fun gap hgap => tokenize_spaced h hgap,
    fun line layout hline hrendered => hrendered.tokenize h hline, ?_⟩
  intro other others hother htexts
  have hgap := areBlank_singleton (c := ' ') rfl
  obtain ⟨us, hus, hcontent⟩ := tokenize_spaced h hgap
  obtain ⟨us', hus', hcontent'⟩ := tokenize_spaced hother hgap
  -- Both texts are the same when they are written with spaces.
  rw [htexts, hus] at hus'
  cases hus'
  have hkinds := congrArg (List.map Prod.fst) (hcontent'.symm.trans hcontent)
  rw [List.map_map, List.map_map] at hkinds
  exact hkinds

/-- A point before a digit, marks that would be a comment together, and a regular expression behind
a parenthesis: in lines of their own and between comments the tokens are found again. -/
theorem tokenize_rendered_lines :
    let v : Vocabulary := ⟨"plain", ⟨[("if", "if")], List.pairwise_singleton _ _⟩,
      List.pairwise_singleton _ _⟩
    let tokens : List Token := [⟨.keyword, "if", 0⟩, ⟨.punctuator, "(", 2⟩, ⟨.identifier, "x", 3⟩,
      ⟨.punctuator, "?", 4⟩, ⟨.numeric, ".5", 5⟩, ⟨.punctuator, ")", 7⟩, ⟨.regex, "/a/g", 8⟩,
      ⟨.punctuator, "<", 12⟩, ⟨.punctuator, "!", 14⟩, ⟨.punctuator, "--", 15⟩]
    tokenize v "if(x?.5)/a/g< !--" = .ok tokens ∧
      (∃ others, tokenize v "if\n(\nx\n?\n.5\n)\n/a/g\n<\n!\n--" = .ok others ∧
        others.map Token.content = tokens.map Token.content) ∧
      ∃ others, tokenize v "#!\n if<!--\n(x/**/ ? .5 ) //\n/a/g < ! --" = .ok others ∧
        others.map Token.kind = tokens.map Token.kind := by
  intro v tokens
  have h : tokenize v "if(x?.5)/a/g< !--" = .ok tokens := by decide +kernel
  have hother : tokenize v "#!\n if<!--\n(x/**/ ? .5 ) //\n/a/g < ! --" =
      .ok [⟨.keyword, "if", 4⟩, ⟨.punctuator, "(", 11⟩, ⟨.identifier, "x", 12⟩,
        ⟨.punctuator, "?", 18⟩, ⟨.numeric, ".5", 20⟩, ⟨.punctuator, ")", 23⟩, ⟨.regex, "/a/g", 28⟩,
        ⟨.punctuator, "<", 33⟩, ⟨.punctuator, "!", 35⟩, ⟨.punctuator, "--", 37⟩] := by
    decide +kernel
  have hlines : spaced (fun _ => String.singleton '\n') (tokens.map Token.text) =
      "if\n(\nx\n?\n.5\n)\n/a/g\n<\n!\n--" := by decide +kernel
  obtain ⟨hspaced, _, hkinds⟩ := tokenize_rendered h
  have hagain := hspaced _ (areBlank_singleton (c := '\n') rfl)
  rw [hlines] at hagain
  exact ⟨h, hagain, _, hother, hkinds _ _ hother rfl⟩

end Respell
