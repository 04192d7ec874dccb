import Respell.Text.Matcher

/-!
# Numerals

A numeral has a radix mark and digits of that radix, or decimal digits with an optional fraction and
exponent; either may end in the mark of a big integer. Underscores may stand among the digits. A
radix mark without digits after it is not one: then only the zero before it is taken.
-/

namespace Respell.Numeral

open Text Text.Matcher

/-- The character is a decimal digit or the separator. -/
def isDecimal (c : Char) : Bool := c.isDigit || c == '_'

/-- The character is a hexadecimal digit. -/
def isHexDigit (c : Char) : Bool :=
  c.isDigit || ('a' ≤ c && c ≤ 'f') || ('A' ≤ c && c ≤ 'F')

/-- The mark of a big integer, if there is one. -/
def bigMark : Matcher Char := optional (exactly 'n')

/-- A zero, one of the two radix marks, and at least one digit of that radix or separator. -/
def radix (lower upper : Char) (digit : Char → Bool) : Matcher Char :=
  sequence (exactly '0')
    (sequence (one fun c => c == lower || c == upper)
      (sequence (run digit digit) bigMark))

/-- Decimal digits, of which the first is no separator. -/
def digits : Matcher Char := run Char.isDigit isDecimal

/-- Digits with an optional fraction, or a fraction alone, which then is not empty. -/
def mantissa : Matcher Char :=
  orElse (sequence digits (optional (sequence (exactly '.') (many isDecimal))))
    (sequence (exactly '.') digits)

/-- An exponent with its optional sign. -/
def exponent : Matcher Char :=
  sequence (one fun c => c == 'e' || c == 'E')
    (sequence (optional (one fun c => c == '+' || c == '-')) digits)

/-- A decimal numeral. -/
def decimal : Matcher Char := sequence mantissa (sequence (optional exponent) bigMark)

/-- A numeral: hexadecimal, octal, binary or decimal, the first of these that can be read. -/
def numeral : Matcher Char :=
  orElse (radix 'x' 'X' fun c => isHexDigit c || c == '_')
    (orElse (radix 'o' 'O' fun c => ('0' ≤ c && c ≤ '7') || c == '_')
      (orElse (radix 'b' 'B' fun c => c == '0' || c == '1' || c == '_') decimal))

theorem splits_bigMark : Splits bigMark := (splits_one _).optional

theorem splits_radix (lower upper : Char) (digit : Char → Bool) :
    Splits (radix lower upper digit) :=
  (splits_one _).sequence ((splits_one _).sequence ((splits_run _ _).sequence splits_bigMark))

theorem splits_mantissa : Splits mantissa :=
  ((splits_run _ _).sequence ((splits_one _).sequence (splits_many _)).optional).orElse
    ((splits_one _).sequence (splits_run _ _))

theorem splits_exponent : Splits exponent :=
  (splits_one _).sequence ((splits_one _).optional.sequence (splits_run _ _))

theorem splits_numeral : Splits numeral :=
  (splits_radix _ _ _).orElse ((splits_radix _ _ _).orElse ((splits_radix _ _ _).orElse
    (splits_mantissa.sequence (splits_exponent.optional.sequence splits_bigMark))))

theorem advances_mantissa : Advances mantissa :=
  (advances_run _ _).sequence.orElse (advances_one _).sequence

theorem advances_numeral : Advances numeral :=
  (advances_one _).sequence.orElse ((advances_one _).sequence.orElse
    ((advances_one _).sequence.orElse advances_mantissa.sequence))

end Respell.Numeral
