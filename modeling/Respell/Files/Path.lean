/-!
# Paths

A path is a text in which slashes separate the names. Empty names and the name of the folder itself
do not count, so that a path with a trailing slash ends in the same name as without it. The stem and
the extension of a name are what comes before and after its last point; a name with no point but the
first character has no extension.
-/

namespace Respell.Path

/-- The pieces between the slashes, empty ones included. -/
def pieces (path : String) : List String := (path.toList.splitOn '/').map String.ofList

/-- The name of the folder itself. -/
def here : String := "."

/-- The name of the folder above. -/
def above : String := ".."

/-- The last name of a path, or `none` when there is none or it leads upward. -/
def fileName? (path : String) : Option String :=
  match ((pieces path).filter fun p => p != "" && p != here).getLast? with
  | none => none
  | some name => if name = above then none else some name

/-- A name cut at its last point, if it has one and does not begin with it. -/
def splitExtension (name : String) : Option (String × String) :=
  let backward := name.toList.reverse
  match backward.dropWhile (· != '.') with
  | [] => none
  | _ :: before =>
    if before.isEmpty then none
    else some (String.ofList before.reverse,
      String.ofList (backward.takeWhile (· != '.')).reverse)

/-- A name without its extension. -/
def stem (name : String) : String :=
  match splitExtension name with
  | some (stem, _) => stem
  | none => name

/-- The extension of a name. -/
def extension? (name : String) : Option String := (splitExtension name).map Prod.snd

/-- The path of an entry in a folder. -/
def join (folder name : String) : String :=
  if folder.toList.getLast? = some '/' then folder ++ name else folder ++ "/" ++ name

end Respell.Path
