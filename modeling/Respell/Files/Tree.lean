import Respell.Files
import Respell.Files.Path

/-!
# Trees of files

A tree of files and folders as a value, with one of its folders as the place where relative paths
begin. A path leads from there, or from the root of the tree, through folders, and may lead upward;
above the root is the root. `files` gives the operations on files as state transitions of a tree,
under the assumptions that are stated there.
-/

namespace Respell

/-- What lies at a place of a tree: a file with its bytes, or a folder. -/
inductive FileEntry where
  | file (bytes : List UInt8)
  | folder
  deriving DecidableEq, Repr

/-- The entries below the root, each at the list of the names that lead to it, and the names that
lead to the folder where relative paths begin. -/
structure FileTree where
  entries : List (List String × FileEntry)
  working : List String
  deriving DecidableEq, Repr

namespace FileTree

/-- The entry at the end of a list of names, or `none` when nothing lies there. -/
def entry? (tree : FileTree) (names : List String) : Option FileEntry :=
  if names.isEmpty then some .folder else tree.entries.lookup names

/-- The place must be a folder. -/
def requireFolder (tree : FileTree) (names : List String) : Except FileFault Unit :=
  match tree.entry? names with
  | some .folder => .ok ()
  | some (.file _) => .error .notFolder
  | none => .error .missing

/-- Steps on from a place, which must be a folder, by one piece of a path. -/
def step (tree : FileTree) (names : List String) (piece : String) :
    Except FileFault (List String) := do
  tree.requireFolder names
  if piece = "" ∨ piece = Path.here then return names
  else if piece = Path.above then return names.dropLast
  else return names ++ [piece]

/-- The place where a path begins. -/
def start (tree : FileTree) (path : String) : List String :=
  if path.toList.head? = some '/' then [] else tree.working

/-- The place that a path leads to, where something may lie or not. -/
def resolve (tree : FileTree) (path : String) : Except FileFault (List String) :=
  if path = "" then .error .missing else (Path.pieces path).foldlM tree.step (tree.start path)

/-- The bytes of a file. -/
def read (tree : FileTree) (path : String) : Except FileFault (List UInt8) := do
  match tree.entry? (← tree.resolve path) with
  | some (.file bytes) => .ok bytes
  | some .folder => .error .isFolder
  | none => .error .missing

/-- The text of a file. -/
def readText (tree : FileTree) (path : String) : Except FileFault String := do
  match String.fromUTF8? ⟨(← tree.read path).toArray⟩ with
  | some text => .ok text
  | none => .error .notText

/-- The names of the entries of a folder. -/
def list (tree : FileTree) (path : String) : Option (List String) :=
  match tree.resolve path with
  | .error _ => none
  | .ok names =>
    if tree.entry? names = some .folder then
      some (tree.entries.filterMap fun e => if e.1.dropLast = names then e.1.getLast? else none)
    else none

/-- The entries with the entry at `names` set, in the place of an earlier one. -/
def setEntry (names : List String) (entry : FileEntry) :
    List (List String × FileEntry) → List (List String × FileEntry)
  | [] => [(names, entry)]
  | e :: rest => if e.1 = names then (names, entry) :: rest else e :: setEntry names entry rest

/-- The tree with the entry at `names` set. -/
def set (tree : FileTree) (names : List String) (entry : FileEntry) : FileTree :=
  { tree with entries := setEntry names entry tree.entries }

/-- The tree with a folder at `names` and at every place on the way to it. -/
def addFolders (tree : FileTree) (names : List String) : FileTree :=
  (List.range names.length).foldl (fun t n => t.set (names.take (n + 1)) .folder) tree

/-- The tree with nothing but the folder where relative paths begin. -/
def empty (working : List String) : FileTree := (FileTree.mk [] working).addFolders working

/-- The tree with an entry at a relative path and folders on the way to it. -/
def add (tree : FileTree) (path : String) (entry : FileEntry) : FileTree :=
  let names := tree.working ++ (Path.pieces path).filter fun p => p != "" && p != Path.here
  (tree.addFolders names.dropLast).set names entry

/-- The place of the file to be written at `path`. All pieces but the last must lead to a folder,
and the last one must not name a folder, whether there is one or not. -/
def target (tree : FileTree) (path : String) : Except FileFault (List String) := do
  if path = "" then .error .missing
  let backward := (Path.pieces path).reverse
  -- The empty pieces at the end come from trailing slashes.
  match backward.dropWhile (· == "") with
  | [] => .error .isFolder
  | last :: before =>
    let parent ← before.reverse.foldlM tree.step (tree.start path)
    tree.requireFolder parent
    let place := parent ++ [last]
    if backward.head? = some "" ∨ last = Path.here ∨ last = Path.above ∨
        tree.entry? place = some .folder then
      .error .isFolder
    else .ok place

/-- The tree with the text in the file at `path`, in the place of what the file held before. -/
def writeText (tree : FileTree) (path text : String) : Except FileFault FileTree := do
  let place ← tree.target path
  return tree.set place (.file text.toUTF8.data.toList)

/-- The operations on files as transitions of a tree.

A tree has no permissions, and its space has no end. So every file that is there can be opened, and
a writing that finds its place is taken to succeed as a whole; one that does not find it is taken to
change nothing. What a machine leaves behind when it fails in the middle of a writing is no state
that these operations lead to. -/
def files : Files (StateM FileTree) where
  readText path tree := (tree.readText path, tree)
  list path tree := (tree.list path, tree)
  writeText path text tree :=
    match tree.writeText path text with
    | .ok tree' => (.ok (), tree')
    | .error fault => (.error fault, tree)

end FileTree

end Respell
