import Respell.Dictionary.Folder
import Respell.Json.Record
import Respell.Settings

/-!
# Settings in documents

Settings are written as a record. What is left out keeps its default, and any fault of the document
is reported in the same way.
-/

namespace Respell

namespace Settings

/-- The field of the folder of vocabularies, which may be null. -/
def folderField : Json.Field := ⟨"lexemsFolder", true, false⟩

/-- The field of the subset to respell from. -/
def sourceField : Json.Field := ⟨"from", false, false⟩

/-- The field of the subset to respell to. -/
def destinationField : Json.Field := ⟨"to", false, false⟩

/-- The settings with the fields that were found. -/
def ofFound (found : Json.Found) : Settings :=
  ⟨found.get? folderField.name,
    (found.get? sourceField.name).getD default.source,
    (found.get? destinationField.name).getD default.destination⟩

/-- The settings in a document; the path is its place. -/
def ofDocument (path document : String) : Except Error Settings :=
  match Json.Record.ofBytes [folderField, sourceField, destinationField]
      document.toUTF8.data.toList with
  | .ok found => .ok (ofFound found)
  | .error _ => .error (.malformedJson path)

/-- The settings in the file at `path`. -/
def load {m : Type → Type} [Monad m] (files : Files m) (path : String) :
    m (Except Error Settings) := do
  match ← files.readText path with
  | .ok document => return ofDocument path document
  | .error fault => return .error (.unreadable path fault)

end Settings

/-- The respeller of the settings, with the dictionary that they name. -/
def Respeller.load {m : Type → Type} [Monad m] (files : Files m) (settings : Settings) :
    m (Report Error Respeller) := do
  return (← Dictionary.load files settings.folder).map fun d => ⟨d, settings⟩

end Respell
