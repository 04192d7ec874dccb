import Respell.CommandLine.Options
import Respell.Files.Tree
import Respell.Log
import Respell.Settings.Document

/-!
# Running the command line

A run reads its settings, loads the dictionary, reads one text, respells it, and prints it or writes
it to a file. Everything that can fail comes before anything is printed, so that a run that fails
prints nothing but the log and the reason.
-/

namespace Respell.CommandLine

/-- What a run needs from its surroundings: the files, and the text of the standard input, or `none`
when its bytes are no text. -/
structure Host (m : Type → Type) where
  files : Files m
  readInput : m (Option String)

/-- What a run leaves behind besides files: the exit code, and the texts on the standard output and
on the standard error. -/
structure Outcome where
  code : Nat
  out : String
  log : String
  deriving DecidableEq, Repr

/-- Why a run failed. -/
inductive Failure where
  | refused (e : Error)
  | input (path : String) (fault : FileFault)
  | standardInput
  | output (path : String) (fault : FileFault)
  deriving DecidableEq, Repr

/-- The reason in words. -/
def Failure.message : Failure → String
  | refused e => e.message
  | input path fault => "Failed to read '" ++ path ++ "': " ++ fault.message
  | standardInput => FileFault.notText.message
  | output path fault => "Failed to write '" ++ path ++ "': " ++ fault.message

/-- The name of the program. -/
def programName : String := "yourscript"

/-- The version of the program. -/
def version : String := "0.1.0"

/-- How the program is used. -/
def usage : String :=
  "Usage: " ++ programName ++ " [OPTIONS] [input]\n\nOptions:\n" ++
    String.join (switches.map fun s =>
      (match s.1 with
        | some c => "  -" ++ String.singleton c ++ ", --"
        | none => "      --") ++ s.2.1 ++
      (match s.2.2 with
        | .valued _ => " <" ++ s.2.1 ++ ">\n"
        | .flag _ => "\n"))

/-- A computation that notes events and may fail. -/
abbrev Job (m : Type → Type) := ExceptT Failure (StateT (List Event) m)

variable {m : Type → Type} [Monad m]

/-- Notes events. -/
def note (events : List Event) : Job m Unit := modify (· ++ events)

/-- Goes on with the result, or fails with its error. -/
def require {α : Type} (result : Except Error α) : Job m α :=
  match result with
  | .ok a => pure a
  | .error e => throw (.refused e)

/-- Does something in the surroundings. -/
def perform {α : Type} (action : m α) : Job m α := liftM action

/-- The settings of a run: those of the file that is named, with the folder that is named. -/
def readSettings (host : Host m) (options : Options) : Job m Settings := do
  let settings ← match options.value? .settings with
    | some path => require (← perform (Settings.load host.files path))
    | none => pure Settings.default
  return { settings with folder := (options.value? .folder).or settings.folder }

/-- The text to respell: that of the file that is named, or else, as for a dash, of the standard
input. -/
def readSource (host : Host m) (options : Options) : Job m String := do
  match options.input with
  | some path =>
    if path = "-" then readStandard
    else
      match ← perform (host.files.readText path) with
      | .ok text => return text
      | .error fault => throw (.input path fault)
  | none => readStandard
where
  /-- The text of the standard input. -/
  readStandard : Job m String := do
    match ← perform host.readInput with
    | some text => return text
    | none => throw .standardInput

/-- The subsets that are named. -/
def Options.choice (options : Options) : Choice :=
  ⟨options.value? .source, options.value? .destination⟩

/-- The respeller of a run, with the dictionary that its settings name. -/
def loadRespeller (host : Host m) (options : Options) : Job m Respeller := do
  let settings ← readSettings host options
  let loaded ← perform (Respeller.load host.files settings)
  note (loaded.warnings.map .warned)
  require loaded.result

/-- Gives a text out, to the file that is named or else on the standard output. What comes back is
the text on the standard output. -/
def giveOut (host : Host m) (options : Options) (text : String) : Job m String := do
  match options.value? .output with
  | none => return text
  | some path =>
    match ← perform (host.files.writeText path text) with
    | .ok () =>
      note [.wrote path]
      return ""
    | .error fault => throw (.output path fault)

/-- Respells the source and gives its text out. -/
def respellSource (host : Host m) (options : Options) (respeller : Respeller) : Job m String := do
  let text ← readSource host options
  note [.started options.choice text.utf8ByteSize]
  let (source, destination) := respeller.resolve options.choice
  let respelled ← require (respeller.respell text options.choice)
  note (respelled.events source destination)
  giveOut host options respelled.text

/-- The text of a run on the standard output. -/
def job (host : Host m) (options : Options) : Job m String := do
  let respeller ← loadRespeller host options
  if options.has .listSubsets then
    return String.join (respeller.dictionary.names.map (· ++ "\n"))
  else respellSource host options respeller

/-- The outcome of the command line with these arguments. -/
def run (host : Host m) (arguments : List String) : m Outcome :=
  match Invocation.ofArguments arguments with
  | .version => pure ⟨0, programName ++ " " ++ version ++ "\n", ""⟩
  | .help => pure ⟨0, usage, ""⟩
  | .misuse => pure ⟨2, "", usage⟩
  | .run options => do
    let (result, events) ← (job host options).run.run []
    let log := renderLog (options.has .verbose) events
    match result with
    | .ok out => return ⟨0, out, log⟩
    | .error failure => return ⟨1, "", log ++ programName ++ ": " ++ failure.message ++ "\n"⟩

/-- The surroundings that consist of a tree of files and the text of the standard input. -/
def treeHost (input : Option String) : Host (StateM FileTree) := ⟨FileTree.files, pure input⟩

end Respell.CommandLine
