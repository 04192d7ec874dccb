/-!
# Tokens

A token is a piece of a text that is read as one unit: its kind, its characters, and where it
begins. Blanks and comments are not tokens.
-/

namespace Respell

/-- The kinds of tokens. A template is cut at its substitutions, and each piece of literal text with
its delimiters is one token of kind `template`. -/
inductive TokenKind where
  | keyword
  | identifier
  | punctuator
  | numeric
  | string
  | template
  | regex
  | boolean
  | null
  deriving DecidableEq, Repr

/-- A token: its kind, its text, and the byte offset at which it begins. -/
structure Token where
  kind : TokenKind
  text : String
  start : Nat
  deriving DecidableEq, Repr

namespace Token

/-- The byte offset right after the token. -/
def stop (t : Token) : Nat := t.start + t.text.utf8ByteSize

/-- The token is the punctuator `text`. -/
def isPunctuator (t : Token) (text : String) : Bool :=
  t.kind == .punctuator && t.text == text

end Token

end Respell
