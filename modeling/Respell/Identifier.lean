import Respell.Unicode.Property

/-!
# Identifier names

A name begins with a letter, a dollar sign or an underscore and goes on with these, with numeric
characters and with the two joiners. `isPart_of_isStart` states that every character that may begin
a name may also stand inside one.
-/

namespace Respell.Identifier

/-- The character may begin a name. -/
def isStart (c : Char) : Bool := c == '$' || c == '_' || Unicode.isAlphabetic c

/-- The character may stand after the first one of a name. -/
def isPart (c : Char) : Bool :=
  isStart c || Unicode.isNumeric c || c == '\u200C' || c == '\u200D'

/-- The characters form a name: there is a first one, and every one is where it may be. -/
def isName : List Char → Bool
  | [] => false
  | c :: rest => isStart c && rest.all isPart

theorem isPart_of_isStart {c : Char} (h : isStart c = true) : isPart c = true := by
  simp [isPart, h]

end Respell.Identifier
