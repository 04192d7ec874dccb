import Mathlib.Tactic.Common
import Respell.Files.Tree
import Respell.Settings.Document

/-!
# Loading only reads

Settings and vocabularies are loaded by operations that read. `OnlyReads` states of an action on a
tree of files that it leaves every tree as it is, and every loading function has this property. In
any surroundings, loading also does not depend on how files would be written, which the `_writeText`
lemmas state.
-/

namespace Respell

section OnlyReads

variable {α β : Type}

/-- The action leaves every tree as it is. -/
def OnlyReads (action : StateM FileTree α) : Prop := ∀ tree, (action.run tree).2 = tree

theorem onlyReads_pure (a : α) : OnlyReads (pure a) := fun _ => rfl

theorem OnlyReads.bind {action : StateM FileTree α} {next : α → StateM FileTree β}
    (h : OnlyReads action) (hnext : ∀ a, OnlyReads (next a)) : OnlyReads (action >>= next) := by
  intro tree
  show ((next (action.run tree).1).run (action.run tree).2).2 = tree
  rw [h tree]
  exact hnext _ tree

theorem onlyReads_readText (path : String) : OnlyReads (FileTree.files.readText path) :=
  fun _ => rfl

theorem onlyReads_list (folder : String) : OnlyReads (FileTree.files.list folder) := fun _ => rfl

theorem Vocabulary.onlyReads_load (path : String) : OnlyReads (load FileTree.files path) := by
  rw [load]
  split
  · exact onlyReads_pure _
  · refine (onlyReads_readText path).bind fun result => ?_
    cases result <;> exact onlyReads_pure _

/-- Every entry is read, up to the first that cannot be loaded. -/
theorem Dictionary.onlyReads_loadEntries (folder : String) (names : List String)
    (d : Dictionary) : OnlyReads (loadEntries FileTree.files folder names d) := by
  induction names generalizing d with
  | nil => exact onlyReads_pure _
  | cons name names ih =>
      refine (Vocabulary.onlyReads_load _).bind fun loaded => ?_
      split
      · exact onlyReads_pure _
      · exact (ih _).bind fun _ => onlyReads_pure _

theorem Dictionary.onlyReads_load (folder : Option String) :
    OnlyReads (load FileTree.files folder) := by
  cases folder with
  | none => exact onlyReads_pure _
  | some folder =>
      refine (onlyReads_list folder).bind fun result => ?_
      split
      · exact onlyReads_pure _
      · dsimp only
        split
        · exact onlyReads_pure _
        · exact onlyReads_loadEntries _ _ _

theorem Settings.onlyReads_load (path : String) : OnlyReads (load FileTree.files path) := by
  refine (onlyReads_readText path).bind fun result => ?_
  cases result <;> exact onlyReads_pure _

theorem Respeller.onlyReads_load (settings : Settings) :
    OnlyReads (load FileTree.files settings) :=
  (Dictionary.onlyReads_load settings.folder).bind fun _ => onlyReads_pure _

end OnlyReads

section WriteText

variable {m : Type → Type} [Monad m]

/-- A vocabulary is loaded without a file being written. -/
theorem Vocabulary.load_writeText (files : Files m)
    (write : String → String → m (Except FileFault Unit)) (path : String) :
    load { files with writeText := write } path = load files path := rfl

/-- The entries of a folder are loaded without a file being written. -/
theorem Dictionary.loadEntries_writeText (files : Files m)
    (write : String → String → m (Except FileFault Unit)) (folder : String) (names : List String)
    (d : Dictionary) : loadEntries { files with writeText := write } folder names d =
      loadEntries files folder names d := by
  induction names generalizing d with
  | nil => rfl
  | cons name names ih =>
      rw [loadEntries, loadEntries, Vocabulary.load_writeText]
      refine congrArg _ (funext fun _ => ?_)
      split
      · rfl
      · rw [ih]

/-- The dictionary is loaded without a file being written. -/
theorem Respeller.load_writeText (files : Files m)
    (write : String → String → m (Except FileFault Unit)) (settings : Settings) :
    load { files with writeText := write } settings = load files settings := by
  have hdictionary : Dictionary.load { files with writeText := write } settings.folder =
      Dictionary.load files settings.folder := by
    cases settings.folder with
    | none => rfl
    | some folder =>
        rw [Dictionary.load, Dictionary.load, Dictionary.loadFolder, Dictionary.loadFolder]
        refine congrArg (files.list folder >>= ·) (funext fun result => ?_)
        split
        · rfl
        · simp only [Dictionary.loadEntries_writeText]
  rw [load, load, hdictionary]

end WriteText

end Respell
