import Respell.Proofs.Text.Position
import Respell.Proofs.Token.Replay

/-!
# A lexer that checks itself

This lexer keeps the whole text and a byte offset. It cuts the text at offsets, it holds the open
parentheses by their places in the list of its tokens, and it goes round in loops. Each of these can
go wrong: an offset inside a character, a place behind the last token, a turn that comes no further.
Where one does, the lexer has no result. The decisions that cut nothing and look at no place are
those of `Lexeme.form`, `Lexeme.wordKind` and `Context`.
-/

namespace Respell.Checked

open Text

/-- What a scanner finds: a value, or a fault with its offset. -/
abbrev Found (α : Type) := Except (LexicalFault × Nat) α

/-- A turn over one character for which `p` holds. -/
def eatTurn (p : Char → Bool) (text : List Char) (_ : Unit) (n : Nat) :
    Option (Turn Unit Nat) := do
  if (← peek? text n).any p then
    let (_, n) ← bump? text n
    some (.again () n)
  else some (.done n)

/-- The offset behind the characters for which `p` holds. -/
def eatWhile (p : Char → Bool) (text : List Char) (n : Nat) : Option Nat :=
  loop text (eatTurn p text) () n

/-- A turn over one blank or comment. -/
def triviaTurn (text : List Char) (_ : Unit) (n : Nat) : Option (Turn Unit (Found Nat)) := do
  let rest ← behind? n text
  if Trivia.beginsLineComment rest then
    let n ← eatWhile (!Literal.isLineEnd ·) text n
    some (.again () n)
  else if Trivia.beginsBlockComment rest then
    match find? Trivia.closingMark (← behind? 2 rest) with
    | some m => some (.again () (n + m + 4))
    | none => some (.done (.error (.unterminatedComment, n)))
  else if (← peek? text n).any Trivia.isBlank then
    let (_, n) ← bump? text n
    some (.again () n)
  else some (.done (.ok n))

/-- The offset behind the blanks and comments. -/
def skipTrivia (text : List Char) (n : Nat) : Option (Found Nat) :=
  loop text (triviaTurn text) () n

/-- The byte length of the escape that begins the text, if it is complete. -/
def escapeLength (rest : List Char) : Option (Option Nat) := do
  match ← behind? 2 rest with
  | '{' :: body =>
    match find? ['}'] body with
    | none => some none
    | some m =>
      if 0 < m then
        let digits ← front? m body
        some (if digits.all Numeral.isHexDigit then some (m + 4) else none)
      else some none
  | digits =>
    -- Four bytes that are no text are no digits, and nothing is cut then.
    some (if (front? 4 digits).any (·.all Numeral.isHexDigit) then some 6 else none)

/-- A turn over one character or one escape of a word. -/
def wordTurn (text : List Char) (escaped : Bool) (n : Nat) :
    Option (Turn Bool (Found (Bool × Nat))) := do
  if (← peek? text n).any Identifier.isPart then
    let (_, n) ← bump? text n
    some (.again escaped n)
  else if ['\\', 'u'].isPrefixOf (← behind? n text) then
    match ← escapeLength (← behind? n text) with
    | some m => some (.again true (n + m))
    | none => some (.done (.error (.invalidEscape, n)))
  else some (.done (.ok (escaped, n)))

/-- The kind of the word at the offset `start`, and the offset behind it. -/
def word (v : Vocabulary) (ctx : Context) (text : List Char) (start : Nat) :
    Option (Found (TokenKind × Nat)) := do
  match ← loop text (wordTurn text) false start with
  | .error e => some (.error e)
  | .ok (escaped, stop) =>
    let chars ← between? start stop text
    some (.ok (Lexeme.wordKind v ctx escaped (String.ofList chars), stop))

/-- The offset behind the rest of an escape in a string. A line feed belongs to a carriage return. -/
def stringEscape (text : List Char) (n : Nat) : Option Nat := do
  let (d, n) ← bump? text n
  if d = some '\r' ∧ (← peek? text n) = some '\n' then
    let (_, n) ← bump? text n
    some n
  else some n

/-- A turn over one character of a string that `quote` closes, or over an escape in it. -/
def stringTurn (quote : Char) (text : List Char) (start : Nat) (_ : Unit) (n : Nat) :
    Option (Turn Unit (Found Nat)) := do
  match ← bump? text n with
  | (none, _) => some (.done (.error (.unterminatedString, start)))
  | (some c, n) =>
    if c = quote then some (.done (.ok n))
    else if c = '\\' then
      let n ← stringEscape text n
      some (.again () n)
    else if c = '\n' ∨ c = '\r' then some (.done (.error (.unterminatedString, start)))
    else some (.again () n)

/-- The offset behind the string at the offset `start`. -/
def string (quote : Char) (text : List Char) (start : Nat) : Option (Found Nat) := do
  let (_, n) ← bump? text start
  loop text (stringTurn quote text start) () n

/-- A turn over one character of a piece of a template, over an escape in it, or over the mark of a
substitution. -/
def templateTurn (text : List Char) (start : Nat) (_ : Unit) (n : Nat) :
    Option (Turn Unit (Found Nat)) := do
  match ← bump? text n with
  | (none, _) => some (.done (.error (.unterminatedTemplate, start)))
  | (some c, n) =>
    if c = Literal.templateQuote then some (.done (.ok n))
    else if c = '\\' then
      let (_, n) ← bump? text n
      some (.again () n)
    else if c = '$' ∧ (← peek? text n) = some '{' then
      let (_, n) ← bump? text n
      some (.done (.ok n))
    else some (.again () n)

/-- The offset behind the piece of a template at the offset `start`. -/
def template (text : List Char) (start : Nat) : Option (Found Nat) := do
  let (_, n) ← bump? text start
  loop text (templateTurn text start) () n

/-- A turn over one character of a regular expression, or over an escape in it. -/
def regexTurn (text : List Char) (start : Nat) (inClass : Bool) (n : Nat) :
    Option (Turn Bool (Found Nat)) := do
  match ← bump? text n with
  | (none, _) => some (.done (.error (.unterminatedRegex, start)))
  | (some c, n) =>
    if c = '\\' then
      let (d, n) ← bump? text n
      if d.all Literal.isLineEnd then some (.done (.error (.unterminatedRegex, start)))
      else some (.again inClass n)
    else if c = '[' then some (.again true n)
    else if c = ']' then some (.again false n)
    else if c = '/' ∧ inClass = false then some (.done (.ok n))
    else if Literal.isLineEnd c then some (.done (.error (.unterminatedRegex, start)))
    else some (.again inClass n)

/-- The offset behind the regular expression at the offset `start`, with its flags. -/
def regex (text : List Char) (start : Nat) : Option (Found Nat) := do
  let (_, n) ← bump? text start
  match ← loop text (regexTurn text start) false n with
  | .error e => some (.error e)
  | .ok n => (eatWhile Identifier.isPart text n).map .ok

/-- The offset behind the name of a private member at the offset `start`. -/
def privateName (text : List Char) (start : Nat) : Option Nat := do
  let (_, n) ← bump? text start
  eatWhile Identifier.isPart text n

/-- The offset behind the numeral at the offset `start`. It is one of the checks that there is a
numeral, and that it is not empty. -/
def numeral (text : List Char) (start : Nat) : Option Nat := do
  let (t, _) ← Numeral.numeral (← behind? start text)
  if 0 < byteLength t then some (start + byteLength t) else none

/-- The punctuator that begins the text, if there is one. -/
def punctuatorText (rest : List Char) : Option (Option (List Char)) := do
  let question := if ['?'].isPrefixOf rest then some ['?'] else none
  match Punctuator.all.find? (·.isPrefixOf rest) with
  | none => some question
  | some p =>
    if p = Punctuator.optionalAccess then
      if (← behind? 2 rest).head?.any Char.isDigit then some question else some (some p)
    else some (some p)

/-- The offset behind the punctuator at the offset `start`, which begins with `c`. -/
def punctuator (c : Char) (text : List Char) (start : Nat) : Option (Found Nat) := do
  match ← punctuatorText (← behind? start text) with
  | some p => some (.ok (start + byteLength p))
  | none => some (.error (.unexpected c, start))

/-- The kind of the token of a form that begins with `c` at the offset `start`, and the offset behind
it. -/
def lexeme (v : Vocabulary) (ctx : Context) (c : Char) (text : List Char) (start : Nat) :
    Form → Option (Found (TokenKind × Nat))
  | .string => (string c text start).map (Except.map (TokenKind.string, ·))
  | .template => (template text start).map (Except.map (TokenKind.template, ·))
  | .privateName => (privateName text start).map fun stop => .ok (TokenKind.identifier, stop)
  | .word => word v ctx text start
  | .numeral => (numeral text start).map fun stop => .ok (TokenKind.numeric, stop)
  | .regex => (regex text start).map (Except.map (TokenKind.regex, ·))
  | .punctuator => (punctuator c text start).map (Except.map (TokenKind.punctuator, ·))

/-- The token at the place `i` is a keyword whose canonical name is among `names`. -/
def keywordAt (v : Vocabulary) (names : List String) (tokens : List Token) (i : Nat) : Bool :=
  tokens[i]?.any fun t => (t.canonical? v).any names.contains

/-- A keyword whose canonical name is among `names` stands right before the place `i`. -/
def keywordBefore (v : Vocabulary) (names : List String) (tokens : List Token) (i : Nat) : Bool :=
  0 < i && keywordAt v names tokens (i - 1)

/-- The punctuator `text` stands right before the place `i`. -/
def punctuatorBefore (text : String) (tokens : List Token) (i : Nat) : Bool :=
  0 < i && punctuatorAt text tokens (i - 1)

/-- The place before the name that stands right before the place `i`, if one does. -/
def beforeName (tokens : List Token) (i : Nat) : Option Nat :=
  if 0 < i then
    (tokens[i - 1]?).map fun t => if t.kind = .identifier then i - 1 else i
  else some i

/-- The place before the star that stands right before the place `i`, if one does. -/
def beforeStar (tokens : List Token) (i : Nat) : Nat :=
  if punctuatorBefore "*" tokens i then i - 1 else i

/-- The place before the `async` that stands right before the place `i`, if one does. -/
def beforeAsync (v : Vocabulary) (tokens : List Token) (i : Nat) : Nat :=
  if keywordBefore v ["async"] tokens i then i - 1 else i

/-- What the brace after a group in parentheses opens, given the place where that group begins. -/
def braceAfterGroup (v : Vocabulary) (tokens : List Token) : Option Nat → Option Brace
  | none => some .statement
  | some opener => do
    let head := beforeStar tokens (← beforeName tokens opener)
    if keywordBefore v ["function"] tokens head then
      let front := beforeAsync v tokens (head - 1)
      if front = 0 || [";", openBrace, closeBrace].any (punctuatorBefore · tokens front) ||
          keywordBefore v ["export", "default"] tokens front then
        some .statement
      else
        some .expression
    else some .statement

/-- What is kept from token to token: the tokens in their order, the places of the open
parentheses, the place of the parenthesis that the latest closing one matches, the open braces, and
whether a slash after the latest closing parenthesis or brace begins a regular expression. -/
structure State where
  tokens : List Token
  parens : List Nat
  group : Option Nat
  braces : List Brace
  regexAfterClose : Bool

namespace State

/-- The state before the first token. -/
def initial : State := ⟨[], [], none, [], false⟩

/-- The context that has the tokens before the places. -/
def context (x : State) : Context :=
  ⟨x.tokens.reverse, x.parens.map (tokensBefore x.tokens), x.group.map (tokensBefore x.tokens),
    x.braces, x.regexAfterClose⟩

/-- The places that the state holds. -/
def places (x : State) : List Nat := x.parens ++ x.group.toList

/-- Every place that the state holds is one of a token, which is an opening parenthesis. -/
def Sound (x : State) : Prop :=
  ∀ i ∈ x.places, i < x.tokens.length ∧ punctuatorAt "(" x.tokens i = true

instance (x : State) : Decidable x.Sound :=
  inferInstanceAs (Decidable (∀ i ∈ x.places, _ ∧ _))

/-- What a brace opened in this state belongs to. -/
def openedBrace (v : Vocabulary) (x : State) : Option Brace :=
  if endsInPunctuator ")" x.tokens.reverse then braceAfterGroup v x.tokens x.group
  else some (x.context.openedBrace v)

/-- The state with the parenthesis or brace that the punctuator `text` is taken into account. -/
def pushPunctuator (v : Vocabulary) (x : State) (text : String) : Option State :=
  if text = "(" then some { x with parens := x.tokens.length :: x.parens }
  else if text = ")" then
    some { x with
      parens := x.parens.tail
      group := x.parens.head?
      regexAfterClose := x.parens.head?.any
        (keywordBefore v ["if", "while", "for", "with"] x.tokens) }
  else if text = Respell.openBrace then
    (x.openedBrace v).map fun b => { x with braces := b :: x.braces }
  else if text = Respell.closeBrace then
    some { x with
      braces := x.braces.tail
      regexAfterClose := x.braces.head? != some .expression }
  else some x

/-- The state in which a token is taken into account that is not yet among the tokens. -/
def account (v : Vocabulary) (x : State) (t : Token) : Option State :=
  match t.kind with
  | .punctuator => x.pushPunctuator v t.text
  | .template => some { x with braces := (x.context.pushTemplate t.text.toList).braces }
  | _ => some x

/-- The state after one more token. It is one of the checks that the places it holds are right. -/
def push (v : Vocabulary) (x : State) (t : Token) : Option State := do
  let y ← x.account v t
  let z := { y with tokens := x.tokens ++ [t] }
  if z.Sound then some z else none

end State

/-- A turn over the blanks and comments before a token and over the token. -/
def turn (v : Vocabulary) (text : List Char) (x : State) (n : Nat) :
    Option (Turn State (Found (List Token))) := do
  match ← skipTrivia text n with
  | .error e => some (.done (.error e))
  | .ok start =>
    match ← behind? start text with
    | [] => some (.done (.ok x.tokens))
    | c :: rest =>
      match ← lexeme v x.context c text start (Lexeme.form v x.context c rest.head?) with
      | .error e => some (.done (.error e))
      | .ok (kind, stop) =>
        let chars ← between? start stop text
        let y ← x.push v ⟨kind, String.ofList chars, start⟩
        some (.again y stop)

/-- The offset behind the first line, when it begins with a hash and an exclamation mark. -/
def skipShebang (text : List Char) : Option Nat := do
  if ['#', '!'].isPrefixOf (← behind? 0 text) then eatWhile (!Literal.isLineEnd ·) text 0
  else some 0

/-- The tokens of a text, or the error. -/
def tokenize (v : Vocabulary) (text : List Char) : Option (Except LexicalError (List Token)) := do
  let n ← skipShebang text
  match ← loop text (turn v text) State.initial n with
  | .ok tokens => some (.ok tokens)
  | .error (fault, offset) =>
    let position ← Position.ofOffset? text offset
    some (.error ⟨fault, offset, position⟩)

end Respell.Checked
