import Respell.Identifier
import Respell.Json.Reader
import Respell.Vocabulary
import Respell.Warning

/-!
# Vocabularies in documents

A vocabulary is written as an object that maps canonical names to spellings. Entries whose key
begins with an at sign are remarks. An entry whose value could never be read as a word is passed
over with a warning. Of several entries with one key the last counts, and the entries are taken in
the order of their keys.
-/

namespace Respell.Vocabulary

open Json (Value)

/-- What becomes of an entry of a document. -/
inductive Entry where
  | remark
  | kept (canonical spelling : String)
  | dropped (warning : Warning)
  deriving DecidableEq, Repr

/-- What becomes of the entry `key` with this value in the document of a subset. -/
def Entry.ofMember (subset key : String) (value : Value) : Entry :=
  if key.toList.head? = some '@' then .remark
  else
    match value with
    | .string spelling =>
      if Identifier.isName spelling.toList then .kept key spelling
      else .dropped (.notName subset key spelling)
    | _ => .dropped (.notString subset key)

/-- The pair of an entry that is kept. -/
def Entry.pair? : Entry → Option (String × String)
  | kept canonical spelling => some (canonical, spelling)
  | _ => none

/-- The warning of an entry that is dropped. -/
def Entry.warning? : Entry → Option Warning
  | dropped warning => some warning
  | _ => none

/-- The vocabulary of the members of an object. -/
def ofMembers (subset : String) (members : List (String × Value)) : Report Error Vocabulary :=
  let entries := (SortedMap.ofList members).entries.map fun m => Entry.ofMember subset m.1 m.2
  ⟨entries.filterMap Entry.warning?, ofPairs subset (entries.filterMap Entry.pair?)⟩

/-- The vocabulary of a value; the path is the place of its document. -/
def ofValue (subset path : String) : Value → Report Error Vocabulary
  | .object members => ofMembers subset members
  | _ => .ofExcept (.error (.invalidVocabulary path .rootNotObject))

/-- The vocabulary of a document; the path is its place. -/
def ofDocument (subset path document : String) : Report Error Vocabulary :=
  match Value.ofString document with
  | some value => ofValue subset path value
  | none => .ofExcept (.error (.malformedJson path))

end Respell.Vocabulary
