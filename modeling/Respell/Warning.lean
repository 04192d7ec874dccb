/-!
# Warnings

What is noted while vocabularies are loaded without being an error: the entries of a document that
are passed over, and a folder in which nothing was found.
-/

namespace Respell

/-- A note about something that was passed over. -/
inductive Warning where
  /-- The value of the entry `keyword` is not a string. -/
  | notString (subset keyword : String)
  /-- The value of the entry `keyword` is not a name, so that no word could be read as it. -/
  | notName (subset keyword spelling : String)
  /-- There is no document of a vocabulary in the folder. -/
  | noneFound (folder : String)
  deriving DecidableEq, Repr

/-- A result with the warnings on the way to it, in their order. An error has warnings too. -/
structure Report (ε α : Type) where
  warnings : List Warning
  result : Except ε α

namespace Report

variable {ε α β : Type}

/-- A result without warnings. -/
def ofExcept (result : Except ε α) : Report ε α := ⟨[], result⟩

/-- The result carried on by `f`. -/
def map (f : α → β) (r : Report ε α) : Report ε β :=
  ⟨r.warnings, match r.result with
    | .ok a => .ok (f a)
    | .error e => .error e⟩

end Report

end Respell
