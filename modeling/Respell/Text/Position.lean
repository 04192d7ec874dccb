import Respell.Text.Bytes

/-!
# Lines and columns

A place in a text is shown to a reader as a line and a column, both counted from one. Only the line
feed ends a line, and a column counts characters.
-/

namespace Respell.Text

/-- A line and a column, both counted from one. -/
structure Position where
  line : Nat
  column : Nat
  deriving DecidableEq, Repr

namespace Position

/-- The position where every text begins. -/
def first : Position := ⟨1, 1⟩

/-- The position after one more character. -/
def advance (p : Position) (c : Char) : Position :=
  if c = '\n' then ⟨p.line + 1, 1⟩ else ⟨p.line, p.column + 1⟩

/-- The position right after the text `before`. -/
def after (before : List Char) : Position := before.foldl advance first

/-- The position of the byte offset `offset` in the text. -/
def ofOffset (text : List Char) (offset : Nat) : Position := after (splitBytes offset text).1

end Position

end Respell.Text
