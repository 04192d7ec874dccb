import Respell.Unicode.Alphabetic
import Respell.Unicode.Numeric
import Respell.Unicode.Extend
import Respell.Unicode.Unprintable

/-!
# Properties of characters

The character classes that the rest of the library asks for, each decided by its table of code
points.
-/

namespace Respell.Unicode

/-- The characters with the property White_Space. -/
def blank : Ranges :=
  [(0x9, 0xD), (0x20, 0x20), (0x85, 0x85), (0xA0, 0xA0), (0x1680, 0x1680), (0x2000, 0x200A),
   (0x2028, 0x2029), (0x202F, 0x202F), (0x205F, 0x205F), (0x3000, 0x3000)]

/-- The character has the property Alphabetic. -/
def isAlphabetic (c : Char) : Bool := alphabetic.covers c.toNat

/-- The character is a decimal digit, a letter number or another number. -/
def isNumeric (c : Char) : Bool := numeric.covers c.toNat

/-- The character has the property White_Space. -/
def isBlank (c : Char) : Bool := blank.covers c.toNat

/-- The letters with the property Grapheme_Extend: the two halfwidth sound marks, which take a place
of their own in a line. -/
def soundMarks : Ranges := [(0xFF9E, 0xFF9F)]

/-- The character is a mark that attaches to the character before it. -/
def isAttached (c : Char) : Bool := graphemeExtend.covers c.toNat && !soundMarks.covers c.toNat

/-- The characters with the property Default_Ignorable_Code_Point. -/
def ignorable : Ranges :=
  [(0xAD, 0xAD), (0x34F, 0x34F), (0x61C, 0x61C), (0x115F, 0x1160), (0x17B4, 0x17B5),
   (0x180B, 0x180F), (0x200B, 0x200F), (0x202A, 0x202E), (0x2060, 0x206F), (0x3164, 0x3164),
   (0xFE00, 0xFE0F), (0xFEFF, 0xFEFF), (0xFFA0, 0xFFA0), (0xFFF0, 0xFFF8), (0x1BCA0, 0x1BCA3),
   (0x1D173, 0x1D17A), (0xE0000, 0xE0FFF)]

/-- The character is the space or has a visible form. The fillers among the letters have none: they
are ignorable. -/
def isPrintable (c : Char) : Bool := !unprintable.covers c.toNat && !ignorable.covers c.toNat

end Respell.Unicode
