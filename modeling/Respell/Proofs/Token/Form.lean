import Respell.Proofs.Identifier
import Respell.Proofs.Token.Reading
import Respell.Proofs.Token.Word

/-!
# The form of a token

The first two characters of a token and its context decide how it is read. `form` is this decision
and `readForm` the reading, and `read_eq_readForm` states that a lexeme is read by one after the
other. A question about all tokens is so answered form by form. `isName_of_read_keyword` answers
the one that keywords raise: only a word without an escape can be one, so a keyword is a name.
-/

namespace Respell

open Text Text.Matcher

/-- The forms of tokens. -/
inductive Form where
  | string
  | template
  | privateName
  | word
  | numeral
  | regex
  | punctuator
  deriving DecidableEq, Repr

/-- What is known of the first character `c` of a token of a form, and of the next one. -/
def Form.Begins (v : Vocabulary) (ctx : Context) (c : Char) (next : Option Char) : Form → Prop
  | .string => c = singleQuote ∨ c = doubleQuote
  | .template => c = Literal.templateQuote ∨ c = '}' ∧ ctx.inSubstitution
  | .privateName => c = '#' ∧ next.any Identifier.isStart
  | .word => Identifier.isStart c ∨ c = '\\' ∧ next = some 'u'
  | .numeral => c.isDigit ∨ c = '.' ∧ next.any Char.isDigit
  | .regex => c = '/' ∧ ctx.allowsRegex v
  | .punctuator => True

/-- The kinds of the tokens of a form. -/
def Form.kinds : Form → List TokenKind
  | .string => [.string]
  | .template => [.template]
  | .privateName => [.identifier]
  | .word => [.keyword, .identifier, .boolean, .null]
  | .numeral => [.numeric]
  | .regex => [.regex]
  | .punctuator => [.punctuator]

namespace Lexeme

variable {v : Vocabulary} {ctx : Context} {c : Char} {rest s : List Char} {l : Lexeme}

/-- The form of a token that begins with `c` before the character `next`. -/
def form (v : Vocabulary) (ctx : Context) (c : Char) (next : Option Char) : Form :=
  if c = singleQuote ∨ c = doubleQuote then .string
  else if c = Literal.templateQuote ∨ c = '}' ∧ ctx.inSubstitution then .template
  else if c = '#' ∧ next.any Identifier.isStart then .privateName
  else if Identifier.isStart c ∨ c = '\\' ∧ next = some 'u' then .word
  else if c.isDigit ∨ c = '.' ∧ next.any Char.isDigit then .numeral
  else if c = '/' ∧ ctx.allowsRegex v then .regex
  else .punctuator

/-- The token of a form that begins the text `s`, of which `c` is the first character. -/
def readForm (v : Vocabulary) (ctx : Context) (c : Char) (s : List Char) :
    Form → Except LexemeFault Lexeme
  | .string => ofMatcher .string .unterminatedString (Literal.string c) s
  | .template => ofMatcher .template .unterminatedTemplate (Literal.template c) s
  | .privateName => ofMatcher .identifier (.unexpected c) privateName s
  | .word => word v ctx s
  | .numeral => ofMatcher .numeric (.unexpected c) Numeral.numeral s
  | .regex => ofMatcher .regex .unterminatedRegex Literal.regex s
  | .punctuator => ofMatcher .punctuator (.unexpected c) Punctuator.punctuator s

/-- A token is read as its form demands. -/
theorem read_eq_readForm (v : Vocabulary) (ctx : Context) (c : Char) (rest : List Char) :
    read v ctx c rest = readForm v ctx c (c :: rest) (form v ctx c rest.head?) := by
  simp only [read, form]
  split
  · rfl
  · split
    · rfl
    · split
      · rfl
      · split
        · rfl
        · split
          · rfl
          · split <;> rfl

/-- A lexeme begins with the first character of the text that it is read from. -/
theorem head?_of_read (h : read v ctx c rest = .ok l) : l.text.head? = some c := by
  obtain ⟨happend, hne⟩ := reads_of_read h
  obtain ⟨d, t, ht⟩ := List.exists_cons_of_ne_nil hne
  rw [ht, List.cons_append, List.cons.injEq] at happend
  rw [ht, happend.1]
  rfl

/-- A matcher gives its kind to what it takes. -/
theorem ofMatcher_eq_ok_iff {kind : TokenKind} {fault : LexicalFault} {m : Matcher Char} :
    ofMatcher kind fault m s = .ok l ↔ l.kind = kind ∧ m s = some (l.text, l.rest) := by
  rw [ofMatcher]
  constructor
  · intro h
    split at h
    · rename_i hm
      cases h
      exact ⟨rfl, hm⟩
    · cases h
  · rintro ⟨rfl, hm⟩
    simp only [hm]

/-- A matcher that refuses the text is at fault at its beginning. -/
theorem ofMatcher_eq_error_iff {kind : TokenKind} {fault : LexicalFault} {m : Matcher Char}
    {e : LexemeFault} : ofMatcher kind fault m s = .error e ↔ e = ⟨fault, []⟩ ∧ m s = none := by
  rw [ofMatcher]
  cases m s with
  | none => simp [eq_comm]
  | some result => simp

/-- A word is read to where its scan ends. -/
theorem word_eq_ok_iff : word v ctx s = .ok l ↔
    ∃ escaped, Word.scan s = .ok ⟨l.text, escaped, l.rest⟩ ∧
      l.kind = wordKind v ctx escaped (String.ofList l.text) := by
  rw [word]
  constructor
  · intro h
    split at h
    · rename_i w hw
      cases h
      exact ⟨w.escaped, hw, rfl⟩
    · cases h
  · rintro ⟨escaped, hscan, hkind⟩
    rw [hscan]
    dsimp only
    rw [← hkind]

/-- A word is a keyword exactly when it has no escape, names no property and is a spelling. -/
theorem wordKind_eq_keyword_iff {escaped : Bool} {text : String} :
    wordKind v ctx escaped text = .keyword ↔
      escaped = false ∧ ctx.namesProperty = false ∧ v.isSpelling text = true := by
  rw [wordKind]
  by_cases hname : escaped || ctx.namesProperty
  · rw [if_pos hname]
    simp only [Bool.or_eq_true] at hname
    rcases hname with h | h <;> simp [h]
  · rw [if_neg hname]
    simp only [Bool.or_eq_true, not_or, Bool.not_eq_true] at hname
    by_cases hspelling : v.isSpelling text = true
    · simp [hname, hspelling]
    · rw [if_neg hspelling]
      simp only [hspelling, and_false, iff_false, Bool.false_eq_true]
      split
      · decide
      · split <;> decide

/-- A word that is no keyword is an identifier or one of the literals. -/
theorem wordKind_of_ne_keyword {escaped : Bool} {text : String}
    (h : wordKind v ctx escaped text ≠ .keyword) :
    wordKind v ctx escaped text = .identifier ∨ wordKind v ctx escaped text = .boolean ∨
      wordKind v ctx escaped text = .null := by
  rw [wordKind] at h ⊢
  split
  · exact Or.inl rfl
  · split
    · rename_i hname hspelling
      rw [if_neg hname, if_pos hspelling] at h
      exact absurd rfl h
    · split
      · exact Or.inr (Or.inl rfl)
      · split
        · exact Or.inr (Or.inr rfl)
        · exact Or.inl rfl

/-- The vocabulary decides the kind of a word only where it has no escape and names no property. -/
theorem wordKind_eq {w : Vocabulary} {other : Context} {escaped : Bool} {text : String}
    (hproperty : ctx.namesProperty = other.namesProperty)
    (hspelling : escaped = false → ctx.namesProperty = false →
      v.isSpelling text = w.isSpelling text) :
    wordKind v ctx escaped text = wordKind w other escaped text := by
  rw [wordKind, wordKind, ← hproperty]
  by_cases hname : escaped || ctx.namesProperty
  · rw [if_pos hname, if_pos hname]
  · simp only [Bool.or_eq_true, not_or, Bool.not_eq_true] at hname
    rw [hspelling hname.1 hname.2]

/-- A word that is no keyword keeps its kind where it is no spelling either. -/
theorem wordKind_congr {w : Vocabulary} {other : Context} {escaped : Bool} {text : String}
    (hkind : wordKind v ctx escaped text ≠ .keyword)
    (hproperty : ctx.namesProperty = other.namesProperty)
    (hfree : escaped = false → ctx.namesProperty = false → w.isSpelling text = false) :
    wordKind v ctx escaped text = wordKind w other escaped text := by
  rw [ne_eq, wordKind_eq_keyword_iff] at hkind
  refine wordKind_eq hproperty fun hplain hfirst => ?_
  rw [hfree hplain hfirst, Bool.eq_false_iff]
  exact fun hspelling => hkind ⟨hplain, hfirst, hspelling⟩

/-- A character that begins a name begins a word. -/
theorem form_of_isStart (v : Vocabulary) (ctx : Context) (next : Option Char)
    (h : Identifier.isStart c = true) : form v ctx c next = .word := by
  have hne := fun {d : Char} (hd : Identifier.isStart d = false) => Identifier.ne_of_isStart h hd
  have hquote : ¬ (c = singleQuote ∨ c = doubleQuote) :=
    not_or.mpr ⟨hne (by decide), hne (by decide)⟩
  have htemplate : ¬ (c = Literal.templateQuote ∨ c = '}' ∧ ctx.inSubstitution) :=
    not_or.mpr ⟨hne (by decide), fun hbrace => hne (by decide) hbrace.1⟩
  have hhash : ¬ (c = '#' ∧ next.any Identifier.isStart) := fun hhash => hne (by decide) hhash.1
  rw [form, if_neg hquote, if_neg htemplate, if_neg hhash, if_pos (Or.inl h)]

/-- A token of a form begins as that form does. -/
theorem begins_of_form {next : Option Char} {f : Form} (h : form v ctx c next = f) :
    f.Begins v ctx c next := by
  subst h
  rw [form]
  split
  · assumption
  · split
    · assumption
    · split
      · assumption
      · split
        · assumption
        · split
          · assumption
          · split
            · assumption
            · trivial

/-- A token has one of the kinds of its form. -/
theorem kind_mem_of_read (h : read v ctx c rest = .ok l) :
    l.kind ∈ (form v ctx c rest.head?).kinds := by
  rw [read_eq_readForm] at h
  cases hform : form v ctx c rest.head? with
  | word =>
      rw [hform] at h
      obtain ⟨escaped, _, hkind⟩ := word_eq_ok_iff.mp h
      by_cases hword : wordKind v ctx escaped (String.ofList l.text) = .keyword
      · rw [hkind, hword]
        exact List.mem_cons_self
      · rcases wordKind_of_ne_keyword hword with hw | hw | hw <;> (rw [hkind, hw]; decide)
  | string | template | privateName | numeral | regex | punctuator =>
      rw [hform, readForm, ofMatcher_eq_ok_iff] at h
      rw [h.1]
      exact List.mem_cons_self

/-- A kind that only one form has decides the form. -/
theorem form_of_read {f : Form} (h : read v ctx c rest = .ok l)
    (honly : ∀ g : Form, l.kind ∈ g.kinds → g = f) : form v ctx c rest.head? = f :=
  honly _ (kind_mem_of_read h)

/-- Only a word can be a keyword. -/
theorem form_of_read_keyword (h : read v ctx c rest = .ok l) (hkind : l.kind = .keyword) :
    form v ctx c rest.head? = .word :=
  form_of_read h fun g hg => by rw [hkind] at hg; revert hg; cases g <;> decide

/-- Only a numeral is numeric. -/
theorem form_of_read_numeric (h : read v ctx c rest = .ok l) (hkind : l.kind = .numeric) :
    form v ctx c rest.head? = .numeral :=
  form_of_read h fun g hg => by rw [hkind] at hg; revert hg; cases g <;> decide

/-- A numeric token is read as a numeral. -/
theorem numeral_of_read (h : read v ctx c rest = .ok l) (hkind : l.kind = .numeric) :
    Numeral.numeral (l.text ++ l.rest) = some (l.text, l.rest) := by
  have hform := form_of_read_numeric h hkind
  rw [(reads_of_read h).1]
  rw [read_eq_readForm, hform] at h
  exact (ofMatcher_eq_ok_iff.mp h).2

/-- A word does not go on with the text behind it. -/
theorem continues_of_word (h : word v ctx s = .ok l) : Word.continues l.rest = false := by
  obtain ⟨escaped, hscan, _⟩ := word_eq_ok_iff.mp h
  exact Word.continues_rest_of_scanFrom hscan

/-- No character of a name follows a private name or a regular expression. -/
theorem any_isPart_of_readForm {f : Form} (h : readForm v ctx c s f = .ok l)
    (hf : f = .privateName ∨ f = .regex) : l.rest.head?.any Identifier.isPart = false := by
  rcases hf with rfl | rfl
  · exact head?_any_of_sequence_many (ofMatcher_eq_ok_iff.mp h).2
  · have hm := (ofMatcher_eq_ok_iff.mp h).2
    rw [Literal.regex, ← sequence_assoc] at hm
    exact head?_any_of_sequence_many hm

/-- A word without an escape is a name. -/
theorem isName_of_scan {w : Word.Scanned} (hform : form v ctx c rest.head? = .word)
    (h : Word.scan (c :: rest) = .ok w) (hplain : w.escaped = false) :
    Identifier.isName w.text = true := by
  have hbegins := begins_of_form hform
  have hparts := Word.isPart_of_scanFrom h hplain (List.forall_mem_nil _)
  obtain ⟨d, t, ht⟩ := List.exists_cons_of_ne_nil
    (Word.text_ne_nil_of_scan (hbegins.imp Identifier.isPart_of_isStart id) h)
  have happend := Word.append_of_scan h
  rw [ht, List.cons_append] at happend
  obtain ⟨rfl, _⟩ := List.cons.inj happend
  rw [ht] at hparts ⊢
  -- The word begins with a character of a name; it is no escape, since it is part of a name.
  have hstart : Identifier.isStart d = true := by
    refine hbegins.resolve_right ?_
    rintro ⟨rfl, _⟩
    have := hparts '\\' List.mem_cons_self
    revert this
    decide
  rw [Identifier.isName, hstart, Bool.true_and, List.all_eq_true]
  exact fun e he => hparts e (List.mem_cons_of_mem _ he)

/-- A keyword is a word without an escape that is a spelling and names no property. -/
theorem isName_of_read_keyword (h : read v ctx c rest = .ok l) (hkind : l.kind = .keyword) :
    Identifier.isName l.text = true ∧ ctx.namesProperty = false ∧
      v.isSpelling (String.ofList l.text) = true ∧ Word.continues l.rest = false := by
  have hform := form_of_read_keyword h hkind
  rw [read_eq_readForm, hform, readForm] at h
  have hcontinues := continues_of_word h
  obtain ⟨escaped, hscan, hword⟩ := word_eq_ok_iff.mp h
  obtain ⟨rfl, hproperty, hspelling⟩ := wordKind_eq_keyword_iff.mp (hword ▸ hkind)
  exact ⟨isName_of_scan hform hscan rfl, hproperty, hspelling, hcontinues⟩

end Lexeme

/-- The keywords among the tokens of a text are names and spellings of the vocabulary. -/
theorem LexerState.Yields.isName_of_keyword {v : Vocabulary} {s : LexerState} {pieces : List Piece}
    {last : List Char} (h : Yields v s pieces last) {p : Piece} (hp : p ∈ pieces)
    (hkind : p.token.kind = .keyword) :
    Identifier.isName p.token.chars = true ∧ v.isSpelling p.token.text = true := by
  induction h with
  | done => cases hp
  | token hskip hread _ ih =>
      rcases List.mem_cons.mp hp with rfl | hp
      · obtain ⟨hname, _, hspelling, _⟩ := Lexeme.isName_of_read_keyword hread hkind
        exact ⟨Lexeme.token_chars _ _ ▸ hname, hspelling⟩
      · exact ih hp

end Respell
