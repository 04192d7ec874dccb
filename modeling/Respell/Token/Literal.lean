import Respell.Text.Matcher
import Respell.Identifier

/-!
# Strings, templates, regular expressions and block comments

Each of these constructs begins with a mark and runs to the first closing mark that is not escaped.
A small state says how the next character is to be read; the text is refused when it ends, or when a
character comes that the construct cannot hold, before the closing mark.
-/

namespace Respell.Literal

open Text Text.Matcher

/-- The characters that end a line. -/
def isLineEnd (c : Char) : Bool := c == '\n' || c == '\r' || c == '\u2028' || c == '\u2029'

/-- The mark around a template. -/
def templateQuote : Char := '\x60'

/-- How the next character of a string is read: as it stands, as the one that a backslash escapes,
or after an escaped carriage return, to which a line feed still belongs. -/
inductive StringState where
  | plain
  | escape
  | carriage
  deriving DecidableEq, Repr

/-- Reads one character of a string that `quote` closes. Outside an escape a line break is refused. -/
def stringMove (quote : Char) : StringState → Char → Move StringState
  | .escape, c => .go (if c = '\r' then .carriage else .plain)
  | state, c =>
    if c = '\n' ∧ state = .carriage then .go .plain
    else if c = quote then .finish
    else if c = '\\' then .go .escape
    else if c = '\n' ∨ c = '\r' then .refuse
    else .go .plain

/-- A string that begins and ends with `quote`. -/
def string (quote : Char) : Matcher Char := sequence (exactly quote) (scan (stringMove quote) .plain)

/-- How the next character of a template is read: as it stands, as the one that a backslash escapes,
or after a dollar sign, with which an opening brace begins a substitution. -/
inductive TemplateState where
  | plain
  | escape
  | dollar
  deriving DecidableEq, Repr

/-- Reads one character of a piece of a template. -/
def templateMove : TemplateState → Char → Move TemplateState
  | .escape, _ => .go .plain
  | state, c =>
    if c = '{' ∧ state = .dollar then .finish
    else if c = templateQuote then .finish
    else if c = '\\' then .go .escape
    else if c = '$' then .go .dollar
    else .go .plain

/-- A piece of a template, from the mark `opening` to the end of the template or to the beginning of
the next substitution. -/
def template (opening : Char) : Matcher Char := sequence (exactly opening) (scan templateMove .plain)

/-- How the next character of a regular expression is read: as it stands, inside a class, where a
slash closes nothing, or, in either place, as the one that a backslash escapes. -/
inductive RegexState where
  | plain
  | escape
  | inClass
  | classEscape
  deriving DecidableEq, Repr

/-- Reads one character of a regular expression. A line never ends inside. -/
def regexMove (state : RegexState) (c : Char) : Move RegexState :=
  if isLineEnd c then .refuse
  else match state with
    | .escape => .go .plain
    | .classEscape => .go .inClass
    | .plain =>
      if c = '/' then .finish
      else if c = '\\' then .go .escape
      else if c = '[' then .go .inClass
      else .go .plain
    | .inClass =>
      if c = '\\' then .go .classEscape
      else if c = ']' then .go .plain
      else .go .inClass

/-- A regular expression between slashes with the flags after it. -/
def regex : Matcher Char :=
  sequence (exactly '/') (sequence (scan regexMove .plain) (many Identifier.isPart))

/-- How the next character of a block comment is read: as it stands, or after a star. -/
inductive CommentState where
  | plain
  | star
  deriving DecidableEq, Repr

/-- Reads one character of a block comment. -/
def commentMove (state : CommentState) (c : Char) : Move CommentState :=
  if c = '/' ∧ state = .star then .finish
  else if c = '*' then .go .star
  else .go .plain

/-- A block comment, which ends at the first star and slash after its opening. -/
def blockComment : Matcher Char :=
  sequence (exactly '/') (sequence (exactly '*') (scan commentMove .plain))

theorem splits_string (quote : Char) : Splits (string quote) :=
  (splits_one _).sequence (splits_scan _ _)

theorem splits_template (opening : Char) : Splits (template opening) :=
  (splits_one _).sequence (splits_scan _ _)

theorem splits_regex : Splits regex :=
  (splits_one _).sequence ((splits_scan _ _).sequence (splits_many _))

theorem splits_blockComment : Splits blockComment :=
  (splits_one _).sequence ((splits_one _).sequence (splits_scan _ _))

end Respell.Literal
