import Respell.Token.Fault

/-!
# Errors

The causes for which a vocabulary is not built, a file is not used, or a text is not respelled, and
the wording of each. Names and paths stand in the wording as they were given.
-/

namespace Respell

/-- Why a file or folder could not be read or written. -/
inductive FileFault where
  | missing
  | notFolder
  | isFolder
  | notText
  | noVocabularyFolder
  /-- A reason given by the surroundings, in their own words. -/
  | other (reason : String)
  deriving DecidableEq, Repr

/-- The reason in words. -/
def FileFault.message : FileFault → String
  | missing => "No such file or directory (os error 2)"
  | notFolder => "Not a directory (os error 20)"
  | isFolder => "Is a directory (os error 21)"
  | notText => "stream did not contain valid UTF-8"
  | noVocabularyFolder => "lexems folder not found or not a directory"
  | other reason => reason

/-- What keeps a well formed document from being a vocabulary. -/
inductive DocumentProblem where
  | rootNotObject
  | noSubsetName
  deriving DecidableEq, Repr

/-- The problem in words. -/
def DocumentProblem.message : DocumentProblem → String
  | rootNotObject => "root must be an object"
  | noSubsetName => "file name is not a valid subset name"

/-- Everything that can go wrong between a request and its respelled text. -/
inductive Error where
  /-- No vocabulary has this name. -/
  | unknownSubset (subset : String)
  /-- A keyword of the first subset has no counterpart in the second. -/
  | noCounterpart (keyword source destination : String)
  /-- A vocabulary would give one spelling to several keywords. -/
  | duplicateSpelling (subset spelling : String)
  /-- The text is not a sequence of tokens. -/
  | lexical (e : LexicalError)
  /-- A file or folder could not be read. -/
  | unreadable (path : String) (fault : FileFault)
  /-- A file does not hold a JSON document of the expected form. -/
  | malformedJson (path : String)
  /-- A JSON document is not a vocabulary. -/
  | invalidVocabulary (path : String) (problem : DocumentProblem)
  deriving DecidableEq, Repr

/-- The error in words. -/
def Error.message : Error → String
  | unknownSubset subset => "Unknown subset '" ++ subset ++ "'"
  | noCounterpart keyword source destination =>
    "Keyword '" ++ keyword ++ "' of subset '" ++ source ++ "' has no translation in subset '" ++
      destination ++ "'"
  | duplicateSpelling subset spelling =>
    "Subset '" ++ subset ++ "' uses spelling '" ++ spelling ++ "' for more than one keyword"
  | lexical e => e.message
  | unreadable path fault => "Failed to read '" ++ path ++ "': " ++ fault.message
  | malformedJson path => "Failed to parse JSON from '" ++ path ++ "': "
  | invalidVocabulary path problem =>
    "Invalid lexems in '" ++ path ++ "': " ++ problem.message

end Respell
