import Respell.Json.Number
import Respell.Text.Quoted

/-!
# Tokens of a document

A document is split into its marks, words, numbers and strings. The list of tokens always exists: at
the first byte that begins no token it ends in `Token.invalid`, which no reader accepts. Strings
keep their bytes, since what is passed over is never decoded; `decode` gives the characters of a
string that is read.
-/

namespace Respell.Json

open Text Text.Matcher Number

/-- The tokens of a document. Numbers and strings carry their bytes, strings without the quotes. -/
inductive Token where
  | beginArray
  | endArray
  | beginObject
  | endObject
  | comma
  | colon
  | null
  | boolean (value : Bool)
  | number (text : List UInt8)
  | string (text : List UInt8)
  /-- No token begins here. -/
  | invalid
  deriving DecidableEq, Repr

namespace Token

/-- The byte is a blank between tokens. -/
def isBlank (b : UInt8) : Bool :=
  b == ascii ' ' || b == ascii '\t' || b == ascii '\n' || b == ascii '\r'

/-- The byte of the double quote. -/
def quote : UInt8 := ascii doubleQuote

/-- The byte is a hexadecimal digit. -/
def isHexDigit (b : UInt8) : Bool :=
  isDigit b || (ascii 'a' ≤ b && b ≤ ascii 'f') || (ascii 'A' ≤ b && b ≤ ascii 'F')

/-- How the next byte of a string is read: as it stands, as the one after a backslash, or as a digit
of a code unit, of which as many are still to come. -/
inductive StringState where
  | plain
  | escape
  | unit (digits : Nat)
  deriving DecidableEq, Repr

/-- Reads one byte of a string. Controls are refused, and so is an escape that does not exist. -/
def stringMove : StringState → UInt8 → Move StringState
  | .plain, b =>
    if b = quote then .finish
    else if b = ascii '\\' then .go .escape
    else if b < ascii ' ' then .refuse
    else .go .plain
  | .escape, b =>
    if b = ascii 'u' then .go (.unit 4)
    else if b = quote ∨ ['\\', '/', 'b', 'f', 'n', 'r', 't'].any (ascii · == b) then .go .plain
    else .refuse
  | .unit n, b =>
    if isHexDigit b then .go (if n ≤ 1 then .plain else .unit (n - 1)) else .refuse

/-- A string with its quotes. -/
def quoted : Matcher UInt8 := sequence (exactly quote) (scan stringMove .plain)

/-- The characters of a word, all of them ASCII. -/
def word : List Char → Matcher UInt8
  | [] => nothing
  | c :: cs => sequence (exactly (ascii c)) (word cs)

/-- The ways to begin a token, of which no two begin with the same byte, and the token of the bytes
taken. -/
def forms : List (Matcher UInt8 × (List UInt8 → Token)) :=
  [(word ['['], fun _ => beginArray), (word [']'], fun _ => endArray),
   (word ['{'], fun _ => beginObject), (word ['}'], fun _ => endObject),
   (word [','], fun _ => comma), (word [':'], fun _ => colon),
   (quoted, fun text => string (text.drop 1).dropLast), (Number.number, number),
   (word ['n', 'u', 'l', 'l'], fun _ => null),
   (word ['t', 'r', 'u', 'e'], fun _ => boolean true),
   (word ['f', 'a', 'l', 's', 'e'], fun _ => boolean false)]

/-- The token that begins the text, with the rest of the text. -/
def read (s : List UInt8) : Option (Token × List UInt8) :=
  forms.findSome? fun form => (form.1 s).map fun (text, rest) => (form.2 text, rest)

theorem splits_quoted : Splits quoted := (splits_exactly _).sequence (splits_scan _ _)

theorem splits_word (cs : List Char) : Splits (word cs) := by
  induction cs with
  | nil => exact splits_nothing
  | cons c cs ih => exact (splits_exactly _).sequence ih

theorem advances_word {cs : List Char} (h : cs ≠ []) : Advances (word cs) := by
  cases cs with
  | nil => exact absurd rfl h
  | cons c cs => exact (advances_one _).sequence

/-- Every form splits the text and takes at least one byte. -/
theorem splits_advances_of_mem_forms {form : Matcher UInt8 × (List UInt8 → Token)}
    (h : form ∈ forms) : Splits form.1 ∧ Advances form.1 := by
  simp only [forms, List.mem_cons, List.not_mem_nil, or_false] at h
  rcases h with h | h | h | h | h | h | h | h | h | h | h <;> subst h
  case inr.inr.inr.inr.inr.inr.inl => exact ⟨splits_quoted, (advances_one _).sequence⟩
  case inr.inr.inr.inr.inr.inr.inr.inl => exact ⟨splits_number, advances_number⟩
  all_goals exact ⟨splits_word _, advances_word (List.cons_ne_nil _ _)⟩

/-- A token leaves less of the text. -/
theorem length_lt_of_read {s rest : List UInt8} {t : Token} (h : read s = some (t, rest)) :
    rest.length < s.length := by
  obtain ⟨form, hmem, hform⟩ := List.exists_of_findSome?_eq_some h
  obtain ⟨⟨text, after⟩, htaken, heq⟩ := Option.map_eq_some_iff.mp hform
  obtain ⟨hsplits, hadvances⟩ := splits_advances_of_mem_forms hmem
  cases heq
  exact length_lt hsplits hadvances htaken

/-- The tokens of the text after those in `taken`, the latest first. -/
def allFrom (taken : List Token) (s : List UInt8) : List Token :=
  match _ : s.dropWhile isBlank with
  | [] => taken.reverse
  | b :: rest =>
    match _ : read (b :: rest) with
    | none => (invalid :: taken).reverse
    | some (t, after) => allFrom (t :: taken) after
termination_by s.length
decreasing_by
  have hread := length_lt_of_read (by assumption)
  have hblank := (List.dropWhile_suffix (l := s) isBlank).length_le
  rename_i h _
  rw [h] at hblank
  exact Nat.lt_of_lt_of_le hread hblank

/-- The tokens of a document, which end in the invalid one when the document cannot be split. -/
def all (s : List UInt8) : List Token := allFrom [] s

end Token

/-- The value of a hexadecimal digit. -/
def hexValue? (c : Char) : Option Nat :=
  if '0' ≤ c ∧ c ≤ '9' then some (c.toNat - '0'.toNat)
  else if 'a' ≤ c ∧ c ≤ 'f' then some (c.toNat - 'a'.toNat + 10)
  else if 'A' ≤ c ∧ c ≤ 'F' then some (c.toNat - 'A'.toNat + 10)
  else none

/-- The code unit of four hexadecimal digits. -/
def codeUnit? (a b c d : Char) : Option Nat := do
  return 4096 * (← hexValue? a) + 256 * (← hexValue? b) + 16 * (← hexValue? c) + (← hexValue? d)

/-- The character that a letter after a backslash stands for. -/
def escapedChar? (c : Char) : Option Char :=
  if c = 'b' then some '\x08'
  else if c = 'f' then some '\x0c'
  else if c = 'n' then some '\n'
  else if c = 'r' then some '\r'
  else if c = 't' then some '\t'
  else if c = '\\' ∨ c = '/' ∨ c = doubleQuote then some c
  else none

/-- A code unit that begins a pair, of which the second gives the lower half. -/
def isHighSurrogate (n : Nat) : Bool := 0xD800 ≤ n && n < 0xDC00

/-- A code unit that ends a pair. -/
def isLowSurrogate (n : Nat) : Bool := 0xDC00 ≤ n && n < 0xE000

/-- The characters of a string after those in `taken`, the latest first. A code unit that is half of
a pair without the other half is refused. -/
def unescapeFrom (taken : List Char) : List Char → Option (List Char)
  | '\\' :: 'u' :: a :: b :: c :: d :: rest =>
    match codeUnit? a b c d with
    | none => none
    | some unit =>
      -- The upper half of a pair counts only with the lower half behind it.
      if isHighSurrogate unit then
        match rest with
        | '\\' :: 'u' :: a :: b :: c :: d :: rest =>
          match codeUnit? a b c d with
          | none => none
          | some low =>
            if isLowSurrogate low then
              unescapeFrom (Char.ofNat (0x10000 + 0x400 * (unit - 0xD800) + (low - 0xDC00)) :: taken)
                rest
            else none
        | _ => none
      else if isLowSurrogate unit then none
      else unescapeFrom (Char.ofNat unit :: taken) rest
  | '\\' :: c :: rest =>
    match escapedChar? c with
    | none => none
    | some c => unescapeFrom (c :: taken) rest
  | c :: rest => unescapeFrom (c :: taken) rest
  | [] => some taken.reverse

/-- The characters of a string between quotes, or `none` when its bytes are no text or a code unit
stands without the other half of its pair. -/
def decode (text : List UInt8) : Option String := do
  let s ← String.fromUTF8? ⟨text.toArray⟩
  return String.ofList (← unescapeFrom [] s.toList)

end Respell.Json
