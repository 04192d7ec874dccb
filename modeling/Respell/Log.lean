import Respell.Settings
import Respell.Warning

/-!
# The log

What happens on the way to a respelled text is noted in lines with a level, the part of the program
they come from, a message, and named values. Warnings are always shown, the others only on demand.
-/

namespace Respell

/-- How urgent a line of the log is. -/
inductive Level where
  | debug
  | info
  | warn
  deriving DecidableEq, Repr

/-- The name of a level. -/
def Level.name : Level → String
  | debug => "DEBUG"
  | info => "INFO"
  | warn => "WARN"

/-- Something that is noted. -/
inductive Event where
  | warned (warning : Warning)
  /-- The respelling of a text of so many bytes begins. -/
  | started (choice : Choice) (bytes : Nat)
  /-- So many keywords were replaced. -/
  | replaced (count : Nat)
  /-- A text of so many tokens was respelled and grew by so many bytes. -/
  | respelled (source destination : String) (tokens : Nat) (drift : Int)
  /-- The text was written to a file. -/
  | wrote (path : String)
  deriving DecidableEq, Repr

/-- A line of the log: level, origin, message, and the named values as they are shown. -/
structure LogLine where
  level : Level
  origin : String
  message : String
  values : List (String × String)
  deriving DecidableEq, Repr

/-- The line as a text. -/
def LogLine.render (line : LogLine) : String :=
  line.level.name ++ " " ++ line.origin ++ ": " ++ line.message ++
    String.join (line.values.map fun v => " " ++ v.1 ++ "=" ++ v.2) ++ "\n"

open Text (quoteString)

/-- The line of a warning. Names and spellings are quoted, keys and paths are not. -/
def Warning.line : Warning → LogLine
  | notString subset keyword =>
    ⟨.warn, "yourscript::loader", "Keyword spelling is not a string, skipping",
      [("subset", quoteString subset), ("keyword", keyword)]⟩
  | notName subset keyword spelling =>
    ⟨.warn, "yourscript::loader", "Keyword spelling is not a valid identifier, skipping",
      [("subset", quoteString subset), ("keyword", keyword), ("spelling", quoteString spelling)]⟩
  | noneFound folder =>
    ⟨.warn, "yourscript::loader", "No lexems files found", [("dir", folder)]⟩

/-- How a chosen subset is shown. -/
def showChosen : Option String → String
  | none => "None"
  | some subset => "Some(" ++ quoteString subset ++ ")"

/-- How a choice is shown. -/
def Choice.show (choice : Choice) : String :=
  "ParseOptions \x7b from: " ++ showChosen choice.source ++ ", to: " ++
    showChosen choice.destination ++ " \x7d"

/-- The line of an event. -/
def Event.line : Event → LogLine
  | warned warning => warning.line
  | started choice bytes =>
    ⟨.debug, "yourscript", "Translating",
      [("options", choice.show), ("bytes", toString bytes)]⟩
  | replaced count =>
    ⟨.debug, "yourscript::translator", "Replaced keywords", [("replaced", toString count)]⟩
  | respelled source destination tokens drift =>
    ⟨.debug, "yourscript::translator", "Translated source",
      [("from", quoteString source), ("to", quoteString destination),
        ("tokens", toString tokens), ("offset", toString drift)]⟩
  | wrote path => ⟨.info, "yourscript", "Wrote translation", [("output", path)]⟩

/-- The text of the events that are shown: all of them when `verbose`, else the warnings. -/
def renderLog (verbose : Bool) (events : List Event) : String :=
  String.join (((events.map Event.line).filter fun l => verbose || l.level == .warn).map
    LogLine.render)

/-- What is noted when a text has been respelled. -/
def Respelled.events (r : Respelled) (source destination : String) : List Event :=
  [.replaced r.replacements.length, .respelled source destination r.tokenCount r.drift]

end Respell
