import Respell.Dictionary.Builtin
import Respell.Files
import Respell.Files.Path
import Respell.Vocabulary.Document

/-!
# Dictionaries in folders

A folder holds one document for each vocabulary, which is named by the stem of the file. Every entry
of the folder with the extension of a document must be one; the others do not count.

What `Files.list` does not show is out of reach here. An entry with the extension of a document and
a stem that is no Unicode text, which could not name a vocabulary, is such an entry. A folder that
cannot be listed is reported as one that is not there, whatever the reason is.
-/

namespace Respell

variable {m : Type → Type} [Monad m]

/-- The vocabulary in the file at `path`. -/
def Vocabulary.load (files : Files m) (path : String) : m (Report Error Vocabulary) :=
  match Path.fileName? path with
  | none => return .ofExcept (.error (.invalidVocabulary path .noSubsetName))
  | some name => do
    match ← files.readText path with
    | .ok document => return ofDocument (Path.stem name) path document
    | .error fault => return .ofExcept (.error (.unreadable path fault))

namespace Dictionary

/-- The extension of the documents. -/
def documentExtension : String := "json"

/-- The name is that of a document. -/
def isDocument (name : String) : Bool := Path.extension? name == some documentExtension

/-- The dictionary `d` with the vocabularies of the named entries of a folder. The first one that
cannot be loaded ends the loading. -/
def loadEntries (files : Files m) (folder : String) :
    List String → Dictionary → m (Report Error Dictionary)
  | [], d => return .ofExcept (.ok d)
  | name :: names, d => do
    let loaded ← Vocabulary.load files (Path.join folder name)
    match loaded.result with
    | .error e => return ⟨loaded.warnings, .error e⟩
    | .ok v =>
      let others ← loadEntries files folder names (d.insert v)
      return ⟨loaded.warnings ++ others.warnings, others.result⟩

/-- The dictionary of the vocabularies in a folder. -/
def loadFolder (files : Files m) (folder : String) : m (Report Error Dictionary) := do
  match ← files.list folder with
  | none => return .ofExcept (.error (.unreadable folder .noVocabularyFolder))
  | some names =>
    let documents := names.filter isDocument
    if documents.isEmpty then return ⟨[.noneFound folder], .ok empty⟩
    else loadEntries files folder documents empty

/-- The dictionary of a folder, or the one that is always there when no folder is given. -/
def load (files : Files m) : Option String → m (Report Error Dictionary)
  | none => return .ofExcept builtin
  | some folder => loadFolder files folder

end Dictionary

end Respell
