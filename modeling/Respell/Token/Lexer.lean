import Respell.Token.Context
import Respell.Token.Punctuator
import Respell.Token.Trivia
import Respell.Token.Word

/-!
# Splitting a text into tokens

`Lexeme.read` reads one token at the beginning of a text, `LexerState.next` skips the blanks and
comments before it and adds it to the context, and `tokenize` does so until the text ends. Which
words are keywords is up to a vocabulary; everything else about the tokens is fixed.

The main lemmas are `Lexeme.reads_of_read`, which states that a lexeme is a non-empty first part of
the text, and `LexerState.length_lt_of_next`, by which the reading ends.
-/

namespace Respell

open Text

/-- A token that has been read, without its place: kind, characters, and the rest of the text. -/
structure Lexeme where
  kind : TokenKind
  text : List Char
  rest : List Char
  deriving DecidableEq, Repr

/-- A fault in a token that begins here, with the part of the token before the fault. -/
structure LexemeFault where
  fault : LexicalFault
  before : List Char
  deriving DecidableEq, Repr

namespace Lexeme

/-- The lexeme that a matcher takes, or the fault when the matcher refuses the text. -/
def ofMatcher (kind : TokenKind) (fault : LexicalFault) (m : Matcher Char) (s : List Char) :
    Except LexemeFault Lexeme :=
  match m s with
  | some (text, rest) => .ok ⟨kind, text, rest⟩
  | none => .error ⟨fault, []⟩

/-- The kind of a word. A word with an escape in it, or one that names a property, is never a
keyword; any other is one exactly when it is a spelling of the vocabulary. -/
def wordKind (v : Vocabulary) (ctx : Context) (escaped : Bool) (text : String) : TokenKind :=
  if escaped || ctx.namesProperty then .identifier
  else if v.isSpelling text then .keyword
  else if text = "true" ∨ text = "false" then .boolean
  else if text = "null" then .null
  else .identifier

/-- The word that begins the text. -/
def word (v : Vocabulary) (ctx : Context) (s : List Char) : Except LexemeFault Lexeme :=
  match Word.scan s with
  | .ok w => .ok ⟨wordKind v ctx w.escaped (String.ofList w.text), w.text, w.rest⟩
  | .error before => .error ⟨.invalidEscape, before⟩

/-- The name of a private member, with its hash. -/
def privateName : Matcher Char := Matcher.run (· == '#') Identifier.isPart

/-- The token that begins the text `c :: rest`. -/
def read (v : Vocabulary) (ctx : Context) (c : Char) (rest : List Char) :
    Except LexemeFault Lexeme :=
  let s := c :: rest
  if c = singleQuote ∨ c = doubleQuote then
    ofMatcher .string .unterminatedString (Literal.string c) s
  else if c = Literal.templateQuote ∨ c = '}' ∧ ctx.inSubstitution then
    ofMatcher .template .unterminatedTemplate (Literal.template c) s
  else if c = '#' ∧ rest.head?.any Identifier.isStart then
    ofMatcher .identifier (.unexpected c) privateName s
  else if Identifier.isStart c ∨ c = '\\' ∧ rest.head? = some 'u' then
    word v ctx s
  else if c.isDigit ∨ c = '.' ∧ rest.head?.any Char.isDigit then
    ofMatcher .numeric (.unexpected c) Numeral.numeral s
  else if c = '/' ∧ ctx.allowsRegex v then
    ofMatcher .regex .unterminatedRegex Literal.regex s
  else
    ofMatcher .punctuator (.unexpected c) Punctuator.punctuator s

/-- The lexeme is a non-empty first part of `s`, and its rest is the rest of `s`. -/
def Reads (l : Lexeme) (s : List Char) : Prop := l.text ++ l.rest = s ∧ l.text ≠ []

theorem reads_ofMatcher {kind : TokenKind} {fault : LexicalFault} {m : Matcher Char} {s : List Char}
    {l : Lexeme} (hsplits : Matcher.Splits m) (hadvances : Matcher.Advances m)
    (h : ofMatcher kind fault m s = .ok l) : l.Reads s := by
  rw [ofMatcher] at h
  split at h
  · rename_i text rest hm
    cases h
    exact ⟨hsplits _ _ _ hm, hadvances _ _ _ hm⟩
  · cases h

theorem reads_word {v : Vocabulary} {ctx : Context} {c : Char} {rest : List Char} {l : Lexeme}
    (hbegin : Identifier.isPart c = true ∨ c = '\\' ∧ rest.head? = some 'u')
    (h : word v ctx (c :: rest) = .ok l) : l.Reads (c :: rest) := by
  rw [word] at h
  split at h
  · rename_i w hw
    cases h
    exact ⟨Word.append_of_scan hw, Word.text_ne_nil_of_scan hbegin hw⟩
  · cases h

/-- A lexeme is a non-empty first part of the text it is read from. -/
theorem reads_of_read {v : Vocabulary} {ctx : Context} {c : Char} {rest : List Char} {l : Lexeme}
    (h : read v ctx c rest = .ok l) : l.Reads (c :: rest) := by
  simp only [read] at h
  split at h
  · exact reads_ofMatcher (Literal.splits_string c) (Matcher.advances_one _).sequence h
  · split at h
    · exact reads_ofMatcher (Literal.splits_template c) (Matcher.advances_one _).sequence h
    · split at h
      · exact reads_ofMatcher (Matcher.splits_run _ _) (Matcher.advances_run _ _) h
      · split at h
        · rename_i hbegin
          exact reads_word (hbegin.imp Identifier.isPart_of_isStart id) h
        · split at h
          · exact reads_ofMatcher Numeral.splits_numeral Numeral.advances_numeral h
          · split at h
            · exact reads_ofMatcher Literal.splits_regex (Matcher.advances_one _).sequence h
            · exact reads_ofMatcher Punctuator.splits_punctuator Punctuator.advances_punctuator h

end Lexeme

/-- How far the reading has come: the context of the tokens so far, the byte offset up to which the
text has been read, and the rest of the text. -/
structure LexerState where
  context : Context
  offset : Nat
  rest : List Char
  deriving DecidableEq, Repr

namespace LexerState

/-- The state before the first token of a text. -/
def initial (text : List Char) : LexerState :=
  let (line, rest) := Trivia.skipShebang text
  ⟨Context.initial, byteLength line, rest⟩

/-- The state after a lexeme that begins at the byte offset `start`. -/
def accept (v : Vocabulary) (ctx : Context) (start : Nat) (l : Lexeme) : LexerState :=
  let t : Token := ⟨l.kind, String.ofList l.text, start⟩
  ⟨ctx.push v t, t.stop, l.rest⟩

/-- The state after one more token, or `none` when only blanks and comments are left. A fault comes
with its byte offset. -/
def next (v : Vocabulary) (s : LexerState) : Except (LexicalFault × Nat) (Option LexerState) :=
  match Trivia.skip s.rest with
  | .error gap => .error (.unterminatedComment, s.offset + byteLength gap)
  | .ok (_, []) => .ok none
  | .ok (gap, c :: rest) =>
    let start := s.offset + byteLength gap
    match Lexeme.read v s.context c rest with
    | .error e => .error (e.fault, start + byteLength e.before)
    | .ok l => .ok (some (accept v s.context start l))

/-- A token leaves less of the text to read. -/
theorem length_lt_of_next {v : Vocabulary} {s t : LexerState} (h : s.next v = .ok (some t)) :
    t.rest.length < s.rest.length := by
  rw [next] at h
  split at h
  · cases h
  · cases h
  · rename_i gap c rest hskip
    dsimp only at h
    split at h
    · cases h
    · -- The gap before the token may be empty, but the token itself is not.
      rename_i l hread
      cases h
      have hgap := Trivia.append_of_skip hskip
      obtain ⟨happend, hne⟩ := Lexeme.reads_of_read hread
      have hpos := List.length_pos_iff.mpr hne
      show l.rest.length < s.rest.length
      rw [← hgap, ← happend, List.length_append, List.length_append]
      omega

/-- The tokens of the whole text in their order: those so far and those of the rest. -/
def run (v : Vocabulary) (s : LexerState) : Except (LexicalFault × Nat) (List Token) :=
  match _ : s.next v with
  | .error e => .error e
  | .ok none => .ok s.context.before.reverse
  | .ok (some t) => run v t
termination_by s.rest.length
decreasing_by exact length_lt_of_next (by assumption)

end LexerState

/-- The tokens of a text under a vocabulary, in their order. -/
def tokenize (v : Vocabulary) (text : String) : Except LexicalError (List Token) :=
  match (LexerState.initial text.toList).run v with
  | .ok tokens => .ok tokens
  | .error (fault, offset) => .error (.at text.toList offset fault)

end Respell
