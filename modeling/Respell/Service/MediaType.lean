import Respell.Text.Matcher
import Respell.Text.Quoted

/-!
# Media types

A media type is a type and a subtype of token characters, of which the subtype may end in a suffix
after a plus sign, with parameters after a semicolon that follows without a blank. `isJson` tells
whether a text is a media type and the content it names is JSON. Letters in either case count as
the same.
-/

namespace Respell.MediaType

open Text Text.Matcher

/-- The character may stand in a token. -/
def isToken (c : Char) : Bool :=
  c.isAlphanum || ['!', '#', '$', '%', '&', singleQuote, '*', '+', '-', '.', '^', '_', '\x60', '|',
    '~'].contains c

/-- The character may stand between quotes. -/
def isQuotable (c : Char) : Bool := ' ' ≤ c && c != '\x7f'

/-- The characters of a header that is a text: visible ones, blanks and tabs. -/
def isVisible (c : Char) : Bool := (' ' ≤ c && c ≤ '~') || c == '\t'

/-- The value of a parameter between quotes, from after the first quote on: it ends at the first
quote that is not at its beginning. The result is the text after it. -/
def skipQuoted : List Char → Option (List Char)
  | [] => none
  | c :: rest =>
    -- The first character belongs to the value even when it is a quote.
    if isQuotable c then
      match rest.dropWhile fun d => isQuotable d && d != doubleQuote with
      | d :: rest => if d = doubleQuote then some rest else none
      | [] => none
    else none

/-- What comes after the value of a parameter between quotes: blanks, and then the end of the text
or the semicolon before the next parameter. The result is the text after the semicolon. -/
def skipSeparator (s : List Char) : Option (List Char) :=
  match s.dropWhile (· == ' ') with
  | [] => some []
  | c :: rest => if c = ';' then some rest else none

/-- One parameter that begins the text. The result is the text of the next parameter. -/
def skipParameter (s : List Char) : Option (List Char) :=
  match run isToken isToken s with
  | some (_, '=' :: value) =>
    match value with
    | c :: rest =>
      if c = doubleQuote then (skipQuoted rest).bind skipSeparator
      else
        match many isToken value with
        | some (_, []) => some []
        | some (_ :: _, ';' :: next) => some next
        | _ => none
    | [] => some []
  | _ => none

/-- The text is a list of parameters. -/
def areParameters (fuel : Nat) (s : List Char) : Bool :=
  match s.dropWhile (· == ' ') with
  | [] => true
  | c :: rest =>
    match fuel with
    | 0 => false
    | fuel + 1 =>
      match skipParameter (c :: rest) with
      | some next => areParameters fuel next
      | none => false

/-- The part before the last plus sign, if one stands after the first character, and the part after
it. -/
def splitSuffix (subtype : List Char) : List Char × Option (List Char) :=
  let backward := subtype.reverse
  let suffix := (backward.takeWhile (· != '+')).reverse
  match backward.dropWhile (· != '+') with
  | _ :: c :: before => ((c :: before).reverse, some suffix)
  | _ => (subtype, none)

/-- The subtype or its suffix is that of JSON. -/
def namesJson (subtype : List Char) : Bool :=
  let json := ['j', 's', 'o', 'n']
  let (base, suffix) := splitSuffix (subtype.map Char.toLower)
  base == json || suffix == some json

/-- The text is a media type for JSON. -/
def isJson (s : List Char) : Bool :=
  let application := ['a', 'p', 'p', 'l', 'i', 'c', 'a', 't', 'i', 'o', 'n']
  match run isToken isToken s with
  | some (type, '/' :: rest) =>
    match run isToken isToken rest with
    | some (subtype, tail) =>
      let parametersOk :=
        match tail with
        | [] => true
        | c :: parameters => c == ';' && areParameters parameters.length parameters
      s.all isVisible && parametersOk && type.map Char.toLower == application && namesJson subtype
    | none => false
  | _ => false

end Respell.MediaType
