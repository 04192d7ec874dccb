import Respell.Dictionary
import Respell.Text.Bytes
import Respell.Token.Lexer

/-!
# Respelling a text

The keywords of a text are replaced from left to right in the text itself. The places of the tokens
are those in the text as it was given; the drift, by which the replacements so far have lengthened
the text, carries them over to the text as it has become. Everything but the keywords stays as it
is. When one keyword has no counterpart nothing is returned.
-/

namespace Respell

/-- The respelling of a text from one vocabulary to another, in progress: the dictionary, the two
vocabularies, and by how many bytes the text has grown so far. -/
structure Respelling where
  dictionary : Dictionary
  source : Vocabulary
  destination : Vocabulary
  drift : Int

/-- One replacement: the keyword, its new spelling, the range of bytes it had in the text as it was
by then, and the drift before the replacement. -/
structure Replacement where
  keyword : String
  spelling : String
  start : Nat
  stop : Nat
  drift : Int
  deriving DecidableEq, Repr

/-- A respelled text with its replacements in order, the number of tokens of the given text, and the
drift at the end. -/
structure Respelled where
  text : String
  replacements : List Replacement
  tokenCount : Nat
  drift : Int
  deriving DecidableEq, Repr

namespace Respelling

/-- The respelling between two subsets, before any replacement. Both must be in the dictionary; the
source is looked up first. -/
def begin (d : Dictionary) (source destination : String) : Except Error Respelling := do
  let spoken ← d.get source
  let wanted ← d.get destination
  return ⟨d, spoken, wanted, 0⟩

/-- The token is a keyword of the source vocabulary. -/
def isTarget (r : Respelling) (t : Token) : Bool :=
  t.kind == .keyword && r.source.isSpelling t.text

/-- The spelling of a source keyword in the destination vocabulary. -/
def respell (r : Respelling) (keyword : String) : Except Error String :=
  r.dictionary.respell keyword r.source.name r.destination.name

/-- Where a byte offset of the given text is in the text as it has become. -/
def place (r : Respelling) (offset : Nat) : Nat := ((offset : Int) + r.drift).toNat

/-- The respelling after a source keyword has been replaced. -/
def advance (r : Respelling) (keyword : String) : Except Error Respelling := do
  let growth ← r.dictionary.growth keyword r.source.name r.destination.name
  return { r with drift := r.drift + growth }

/-- A respelling with the text as it has become and the replacements so far, the latest first. -/
structure Progress where
  respelling : Respelling
  text : List Char
  replacements : List Replacement

/-- The progress after one more token: a target is replaced in the text, any other token is passed
over. -/
def Progress.step (p : Progress) (t : Token) : Except Error Progress :=
  let r := p.respelling
  if r.isTarget t then do
    -- Both ends are placed by the drift before this replacement.
    let start := r.place t.start
    let stop := r.place t.stop
    let spelling ← r.respell t.text
    let r' ← r.advance t.text
    return ⟨r', Text.replaceBytes start stop spelling.toList p.text,
      ⟨t.text, spelling, start, stop, r.drift⟩ :: p.replacements⟩
  else return p

/-- The progress after the tokens, which are in their order in the text. -/
def replaceTokens (r : Respelling) (text : List Char) (tokens : List Token) :
    Except Error Progress :=
  tokens.foldlM Progress.step ⟨r, text, []⟩

/-- Splits the text into tokens by the source vocabulary and replaces its keywords. -/
def run (r : Respelling) (text : String) : Except Error Respelled := do
  let tokens ← (tokenize r.source text).mapError .lexical
  let p ← r.replaceTokens text.toList tokens
  return ⟨String.ofList p.text, p.replacements.reverse, tokens.length, p.respelling.drift⟩

end Respelling

/-- The text respelled from the subset `source` to the subset `destination`. -/
def Dictionary.respellText (d : Dictionary) (source destination text : String) :
    Except Error Respelled := do
  let r ← Respelling.begin d source destination
  r.run text

end Respell
