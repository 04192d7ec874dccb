import Respell.Token
import Respell.Vocabulary

/-!
# The context of a token

Two characters cannot be read without knowing what came before them. A slash begins a regular
expression or divides, and a closing brace ends a block or a substitution of a template. The context
remembers the tokens so far, the parentheses and braces that are still open, and what the latest
closing one allows; `Context.push` adds one token. Keywords enter only by their canonical names, so
that the same text structure is found under every vocabulary.
-/

namespace Respell

/-- What an open brace belongs to: a block or a body of a function that is a statement, an object or
a body of a function that is an expression, or a substitution of a template. -/
inductive Brace where
  | statement
  | expression
  | substitution
  deriving DecidableEq, Repr

/-- The punctuator that opens a brace. -/
def openBrace : String := "\x7b"

/-- The punctuator that closes a brace. -/
def closeBrace : String := "\x7d"

/-- The canonical name of a token that is a keyword. -/
def Token.canonical? (v : Vocabulary) (t : Token) : Option String :=
  if t.kind = .keyword then v.canonical? t.text else none

/-- The tokens, the latest first, end in the punctuator `text`. -/
def endsInPunctuator (text : String) (before : List Token) : Bool :=
  before.head?.any (·.isPunctuator text)

/-- The tokens, the latest first, end in a keyword whose canonical name is among `names`. -/
def endsInKeyword (v : Vocabulary) (names : List String) (before : List Token) : Bool :=
  match before.head? with
  | none => false
  | some t => (t.canonical? v).any names.contains

/-- What is known after some tokens: the tokens themselves, the latest first; the tokens before each
open parenthesis; the tokens before the parenthesis that the latest closing one matches; the open
braces; and whether a slash after the latest closing parenthesis or brace begins a regular
expression. Inner parentheses and braces stand first. -/
structure Context where
  before : List Token
  parens : List (List Token)
  group : Option (List Token)
  braces : List Brace
  regexAfterClose : Bool
  deriving DecidableEq, Repr

namespace Context

/-- The context of the first token. -/
def initial : Context := ⟨[], [], none, [], false⟩

/-- A group in parentheses after these tokens is the head of a statement, and not a value. -/
def isControlGroup (v : Vocabulary) (before : List Token) : Bool :=
  endsInKeyword v ["if", "while", "for", "with"] before

/-- The tokens without a name at their end. -/
def dropName : List Token → List Token
  | t :: rest => if t.kind = .identifier then rest else t :: rest
  | [] => []

/-- The tokens without the star of a generator at their end. -/
def dropStar (before : List Token) : List Token :=
  if endsInPunctuator "*" before then before.tail else before

/-- What the brace after a group in parentheses opens, given the tokens before that group. The body
of a function is an expression unless the function stands where a statement may begin. -/
def braceAfterGroup (v : Vocabulary) : Option (List Token) → Brace
  | none => .statement
  | some opener =>
    -- The group may follow the name of a function and the star of a generator.
    let head := dropStar (dropName opener)
    if endsInKeyword v ["function"] head then
      let front := head.tail
      let front := if endsInKeyword v ["async"] front then front.tail else front
      if front.isEmpty || [";", openBrace, closeBrace].any (endsInPunctuator · front) ||
          endsInKeyword v ["export", "default"] front then
        .statement
      else
        .expression
    else .statement

/-- What a brace opened in this context belongs to. -/
def openedBrace (v : Vocabulary) (ctx : Context) : Brace :=
  match ctx.before with
  | [] => .statement
  | last :: _ =>
    match last.kind with
    | .punctuator =>
      if last.text = ")" then braceAfterGroup v ctx.group
      else if [";", openBrace, closeBrace, "=>"].contains last.text then .statement
      else .expression
    | .keyword =>
      if endsInKeyword v ["else", "do", "try", "finally"] ctx.before then .statement
      else .expression
    | .template => .expression
    | _ => .statement

/-- A slash in this context begins a regular expression: no value has just ended. -/
def allowsRegex (v : Vocabulary) (ctx : Context) : Bool :=
  match ctx.before with
  | [] => true
  | last :: _ =>
    match last.kind with
    | .punctuator =>
      if last.text = ")" ∨ last.text = closeBrace then ctx.regexAfterClose
      else last.text != "]"
    -- These two are values; after any other keyword a value begins.
    | .keyword => !endsInKeyword v ["this", "super"] ctx.before
    | _ => false

/-- A closing brace in this context ends a substitution. -/
def inSubstitution (ctx : Context) : Bool := ctx.braces.head? == some .substitution

/-- The word after these tokens names a property. -/
def namesProperty (ctx : Context) : Bool :=
  endsInPunctuator "." ctx.before || endsInPunctuator "?." ctx.before

/-- The context with the parenthesis or brace that the punctuator `text` is taken into account. -/
def pushPunctuator (v : Vocabulary) (ctx : Context) (text : String) : Context :=
  if text = "(" then { ctx with parens := ctx.before :: ctx.parens }
  else if text = ")" then
    { ctx with
      parens := ctx.parens.tail
      group := ctx.parens.head?
      regexAfterClose := ctx.parens.head?.any (isControlGroup v) }
  else if text = openBrace then { ctx with braces := ctx.openedBrace v :: ctx.braces }
  else if text = closeBrace then
    { ctx with
      braces := ctx.braces.tail
      regexAfterClose := ctx.braces.head? != some .expression }
  else ctx

/-- The context with the substitutions that a piece of a template ends and begins taken into
account. -/
def pushTemplate (ctx : Context) (text : List Char) : Context :=
  -- The piece after a substitution begins with the brace that closes it.
  let outer := if text.head? = some '}' then ctx.braces.tail else ctx.braces
  { ctx with braces := if ['$', '{'].isSuffixOf text then .substitution :: outer else outer }

/-- The context after one more token. -/
def push (v : Vocabulary) (ctx : Context) (t : Token) : Context :=
  let ctx' := match t.kind with
    | .punctuator => ctx.pushPunctuator v t.text
    | .template => ctx.pushTemplate t.text.toList
    | _ => ctx
  { ctx' with before := t :: ctx.before }

/-- The context after the tokens of a text, in their order. -/
def ofTokens (v : Vocabulary) (tokens : List Token) : Context := tokens.foldl (push v) initial

end Context

end Respell
