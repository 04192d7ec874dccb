import Respell.Error

/-!
# Files

The library reads and writes files through three operations, which the surroundings supply, so that
the same functions work on the files of a machine and on a tree that is a value.
-/

namespace Respell

/-- The operations on files: the text of a file, the names of the entries of a folder, and the
writing of a file, which keeps nothing of an earlier one.

Paths and names are texts, so an entry whose name is no Unicode text is not among those of a folder.
A folder is listed as a whole or not at all: `none` stands for what is no folder and for every other
reason why the listing fails, or one of its entries, and the reasons are not told apart. -/
structure Files (m : Type → Type) where
  readText : String → m (Except FileFault String)
  list : String → m (Option (List String))
  writeText : String → String → m (Except FileFault Unit)

end Respell
