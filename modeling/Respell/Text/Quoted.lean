import Respell.Unicode.Property

/-!
# Quoted text

A text shown in a message or a log line is put between quotes, and inside them every character that
a reader could not see or could take for the closing quote is written as an escape. The same rule
serves characters between single quotes and strings between double quotes: only the quote that
encloses the text is escaped.
-/

namespace Respell.Text

/-- The single quote. -/
def singleQuote : Char := '\x27'

/-- The double quote. -/
def doubleQuote : Char := '\x22'

/-- The escape of a character by its code point, in lower case and without leading zeros. -/
def codePointEscape (c : Char) : List Char :=
  ['\\', 'u', '{'] ++ Nat.toDigits 16 c.toNat ++ ['}']

/-- How a character is written between two quotes `quote`: the quote itself, the backslash and four
controls have an escape of their own, what does not print or attaches to the character before it is
written by its code point, and every other character stands for itself. -/
def quotedChar (quote c : Char) : List Char :=
  if c = '\x00' then ['\\', '0']
  else if c = '\t' then ['\\', 't']
  else if c = '\r' then ['\\', 'r']
  else if c = '\n' then ['\\', 'n']
  else if c = '\\' ∨ c = quote then ['\\', c]
  else if Unicode.isAttached c ∨ ¬ Unicode.isPrintable c then codePointEscape c
  else [c]

/-- The characters between two quotes `quote`, written by `quotedChar`. -/
def enclose (quote : Char) (cs : List Char) : String :=
  String.ofList (quote :: (cs.flatMap (quotedChar quote) ++ [quote]))

/-- A character between single quotes. -/
def quoteChar (c : Char) : String := enclose singleQuote [c]

/-- A string between double quotes. -/
def quoteString (s : String) : String := enclose doubleQuote s.toList

end Respell.Text
