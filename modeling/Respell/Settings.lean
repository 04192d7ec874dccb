import Respell.Dictionary.Builtin
import Respell.Respelling

/-!
# Settings and choices

Settings say where the vocabularies come from and which two subsets a text is respelled between; a
choice overrides the subsets for one text. A respeller is a dictionary with its settings.
-/

namespace Respell

/-- The folder of vocabularies, if not the two that are always there, and the two subsets that a
text is respelled between where nothing else is chosen. -/
structure Settings where
  folder : Option String
  source : String
  destination : String
  deriving DecidableEq, Repr

/-- The settings where none are given. -/
def Settings.default : Settings := ⟨none, Dictionary.plainSubset, Dictionary.secondSubset⟩

/-- The subsets chosen for one text; what is not chosen is left to the settings. -/
structure Choice where
  source : Option String
  destination : Option String
  deriving DecidableEq, Repr

/-- A dictionary with the settings for its use. -/
structure Respeller where
  dictionary : Dictionary
  settings : Settings

namespace Respeller

/-- The two subsets that a choice selects. -/
def resolve (r : Respeller) (choice : Choice) : String × String :=
  (choice.source.getD r.settings.source, choice.destination.getD r.settings.destination)

/-- The text respelled between the subsets that the choice selects. -/
def respell (r : Respeller) (text : String) (choice : Choice) : Except Error Respelled :=
  let (source, destination) := r.resolve choice
  r.dictionary.respellText source destination text

end Respeller

end Respell
