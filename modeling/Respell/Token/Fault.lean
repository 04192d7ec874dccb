import Respell.Text.Position
import Respell.Text.Quoted

/-!
# Lexical faults

A text without a token at some place is refused as a whole. The fault names the construct that is
incomplete or misplaced, and the error adds where in the text it begins.
-/

namespace Respell

/-- What keeps a text from being split into tokens. -/
inductive LexicalFault where
  | unterminatedString
  | unterminatedTemplate
  | unterminatedRegex
  | unterminatedComment
  | invalidEscape
  | unexpected (c : Char)
  deriving DecidableEq, Repr

/-- The fault in words. -/
def LexicalFault.message : LexicalFault → String
  | unterminatedString => "unterminated string literal"
  | unterminatedTemplate => "unterminated template literal"
  | unterminatedRegex => "unterminated regular expression literal"
  | unterminatedComment => "unterminated block comment"
  | invalidEscape => "invalid unicode escape in identifier"
  | unexpected c => "unexpected character " ++ Text.quoteChar c

/-- A fault with its byte offset in the text and the line and column of that offset. -/
structure LexicalError where
  fault : LexicalFault
  offset : Nat
  position : Text.Position
  deriving DecidableEq, Repr

/-- The error of a fault at the byte offset `offset` of the text. -/
def LexicalError.at (text : List Char) (offset : Nat) (fault : LexicalFault) : LexicalError :=
  ⟨fault, offset, Text.Position.ofOffset text offset⟩

/-- The error in words, with its place. -/
def LexicalError.message (e : LexicalError) : String :=
  "Tokenize error at line " ++ toString e.position.line ++ ", column " ++
    toString e.position.column ++ ": " ++ e.fault.message

end Respell
