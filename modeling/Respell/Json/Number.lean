import Respell.Text.Matcher

/-!
# Numbers of a document

A number is an integer without leading zeros, with an optional fraction and exponent. Its value is
not used, but a number that no finite double is near is refused where values are read. `isFinite`
decides this without floating point: it takes as many leading digits as fit into 64 bits, scales
them by the power of ten that remains, rounds both factors to 53 significant bits, and compares the
product with the least number that rounds to infinity.
-/

namespace Respell.Json.Number

open Text Text.Matcher

/-- The byte of an ASCII character. -/
def ascii (c : Char) : UInt8 := c.toUInt8

/-- The byte is a decimal digit. -/
def isDigit (b : UInt8) : Bool := ascii '0' ≤ b && b ≤ ascii '9'

/-- The byte is a decimal digit other than zero. -/
def isNonzeroDigit (b : UInt8) : Bool := ascii '1' ≤ b && b ≤ ascii '9'

/-- The byte begins an exponent. -/
def isExponentMark (b : UInt8) : Bool := b == ascii 'e' || b == ascii 'E'

/-- The byte is a sign. -/
def isSign (b : UInt8) : Bool := b == ascii '-' || b == ascii '+'

/-- A zero that no digit follows, or digits that begin with another one. -/
def integer : Matcher UInt8 :=
  orElse (sequence (exactly (ascii '0')) (notBefore isDigit)) (run isNonzeroDigit isDigit)

/-- A point and at least one digit. -/
def fraction : Matcher UInt8 := sequence (exactly (ascii '.')) (run isDigit isDigit)

/-- An exponent mark, an optional sign, and at least one digit. -/
def exponent : Matcher UInt8 :=
  sequence (one isExponentMark) (sequence (optional (one isSign)) (run isDigit isDigit))

/-- The sign and the integer of a number. -/
def whole : Matcher UInt8 := sequence (optional (exactly (ascii '-'))) integer

/-- A number. A point or an exponent mark that is not followed by digits refuses the text. -/
def number : Matcher UInt8 :=
  sequence whole
    (sequence (onlyBefore (· == ascii '.') fraction) (onlyBefore isExponentMark exponent))

theorem splits_whole : Splits whole :=
  (splits_exactly _).optional.sequence
    (((splits_exactly _).sequence (splits_notBefore _)).orElse (splits_run _ _))

theorem splits_number : Splits number :=
  splits_whole.sequence
    ((splits_onlyBefore _ ((splits_exactly _).sequence (splits_run _ _))).sequence
      (splits_onlyBefore _
        ((splits_one _).sequence ((splits_one _).optional.sequence (splits_run _ _)))))

theorem advances_number : Advances number :=
  (Advances.sequence_right _ ((advances_one _).sequence.orElse (advances_run _ _))).sequence

/-- The value of a digit. -/
def digitValue (b : UInt8) : Nat := b.toNat - (ascii '0').toNat

/-- The number of a list of digits. -/
def ofDigits (digits : List UInt8) : Nat := digits.foldl (fun n d => 10 * n + digitValue d) 0

/-- The number of values of a 64 bit word. -/
def wordBound : Nat := 1 <<< 64

/-- A number by its leading digits and the power of ten that scales them, and whether the next digit
is still looked at. -/
structure Scaled where
  significand : Nat
  exponent : Int
  counting : Bool
  deriving DecidableEq, Repr

/-- The number with one more digit of its integer. From the first digit that does not fit on, the
digits count only by their place. -/
def Scaled.pushInteger (n : Scaled) (digit : UInt8) : Scaled :=
  let longer := 10 * n.significand + digitValue digit
  if n.counting ∧ longer < wordBound then { n with significand := longer }
  else { n with exponent := n.exponent + 1, counting := false }

/-- The number with one more digit of its fraction. From the first digit that does not fit on, the
digits do not count. -/
def Scaled.pushFraction (n : Scaled) (digit : UInt8) : Scaled :=
  let longer := 10 * n.significand + digitValue digit
  if n.counting ∧ longer < wordBound then
    { n with significand := longer, exponent := n.exponent - 1 }
  else { n with counting := false }

/-- The number of the digits of an integer and of a fraction and of a power of ten. The fraction
begins to count anew. -/
def Scaled.ofParts (whole fraction : List UInt8) (power : Int) : Scaled :=
  let n := whole.foldl pushInteger ⟨0, 0, true⟩
  let n := fraction.foldl pushFraction { n with counting := true }
  { n with exponent := n.exponent + power }

/-- The nearest number with at most 53 significant bits, of two equally near ones the even one. -/
def roundToDouble (n : Nat) : Nat :=
  let shift := n.log2 - 52
  let kept := n >>> shift
  let twiceLost := (n - kept <<< shift) <<< 1
  let unit := 1 <<< shift
  let up := twiceLost > unit ∨ twiceLost = unit ∧ kept % 2 = 1
  (if up then kept + 1 else kept) <<< shift

/-- The least number that rounds to infinity: the greatest finite double and half of its last bit. -/
def infinityBound : Nat := 1 <<< 1024 - 1 <<< 970

/-- The scaled number is near a finite double. -/
def Scaled.isFinite (n : Scaled) : Bool :=
  if n.significand = 0 ∨ n.exponent < 0 then true
  else if n.exponent > 308 then false
  else roundToDouble n.significand * roundToDouble (Nat.pow 10 n.exponent.toNat) < infinityBound

/-- The value of a signed exponent. -/
def signedValue : List UInt8 → Int
  | [] => 0
  | b :: digits =>
    if b = ascii '-' then -(ofDigits digits : Int)
    else if b = ascii '+' then ofDigits digits
    else ofDigits (b :: digits)

/-- The text of a number is near a finite double. -/
def isFinite (text : List UInt8) : Bool :=
  let unsigned := text.dropWhile isSign
  let rest := unsigned.dropWhile isDigit
  let (fraction, tail) :=
    match rest with
    | [] => ([], [])
    | mark :: digits =>
      if mark = ascii '.' then (digits.takeWhile isDigit, digits.dropWhile isDigit)
      else ([], rest)
  (Scaled.ofParts (unsigned.takeWhile isDigit) fraction (signedValue (tail.drop 1))).isFinite

end Respell.Json.Number
