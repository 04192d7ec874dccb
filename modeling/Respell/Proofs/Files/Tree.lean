import Mathlib.Tactic.Common
import Respell.Files.Tree

/-!
# What writing a file changes

A file is written at the place that its path leads to. `entry?_set` states what an entry that is set
changes and what it leaves alone. The way to the place goes through folders, and what is replaced is
none, so the path leads to the same place afterwards: `Written.readText` states that the text is
read again under the path. `files_writeText_of_target` and `files_writeText_of_fault` sum up when a
text can be written and what becomes of the tree.
-/

namespace Respell

/-- A computation that succeeds has done so in its first part and in what comes after. -/
theorem bind_eq_ok_iff {ε α β : Type} {x : Except ε α} {f : α → Except ε β} {b : β} :
    (x >>= f) = .ok b ↔ ∃ a, x = .ok a ∧ f a = .ok b := by
  cases x with
  | error e => simp [bind, Except.bind]
  | ok a => simp [bind, Except.bind]

namespace FileTree

variable {tree other : FileTree} {place names parent : List String} {entry : FileEntry}
  {path piece text : String}

/-- An entry that is set is found in its place, and all others are found as before. -/
theorem lookup_setEntry (names : List String) (entry : FileEntry)
    (entries : List (List String × FileEntry)) (place : List String) :
    (setEntry names entry entries).lookup place =
      if place = names then some entry else entries.lookup place := by
  have hcons : ∀ (e : List String × FileEntry) rest,
      List.lookup place (e :: rest) = if place = e.1 then some e.2 else rest.lookup place := by
    intro e rest
    rw [List.lookup_cons]
    by_cases h : place = e.1
    · rw [if_pos h, beq_iff_eq.mpr h]
    · rw [if_neg h, beq_eq_false_iff_ne.mpr h]
  induction entries with
  | nil => rw [setEntry, hcons]
  | cons e rest ih =>
      rw [setEntry]
      by_cases he : e.1 = names
      · rw [if_pos he, hcons, hcons, he]
        split <;> rfl
      · rw [if_neg he, hcons, hcons, ih]
        by_cases hplace : place = e.1
        · rw [if_pos hplace, if_neg fun h => he (hplace.symm.trans h), if_pos hplace]
        · rw [if_neg hplace, if_neg hplace]

/-- An entry that is set below the root changes what lies in its place and nowhere else. -/
theorem entry?_set (tree : FileTree) (entry : FileEntry) (hne : names ≠ []) (place : List String) :
    FileTree.entry? (tree.set names entry) place =
      if place = names then some entry else tree.entry? place := by
  unfold entry? FileTree.set
  rw [lookup_setEntry]
  cases place with
  | nil => simp [hne.symm]
  | cons name place => simp

/-- `DiffersOnlyAt tree other place`: something else may lie at the place, and all the rest is the
same. -/
structure DiffersOnlyAt (tree other : FileTree) (place : List String) : Prop where
  working : other.working = tree.working
  entry : ∀ names, names ≠ place → other.entry? names = tree.entry? names

theorem requireFolder_eq_ok_iff : tree.requireFolder names = .ok () ↔
    tree.entry? names = some .folder := by
  rw [requireFolder]
  split <;> simp [*]

namespace DiffersOnlyAt

/-- A folder is still one. -/
theorem requireFolder (h : DiffersOnlyAt tree other place)
    (hplace : tree.entry? place ≠ some .folder) (hok : tree.requireFolder names = .ok ()) :
    other.requireFolder names = .ok () := by
  rw [requireFolder_eq_ok_iff] at hok ⊢
  rw [h.entry names, hok]
  rintro rfl
  exact hplace hok

/-- A step through a folder leads where it led. -/
theorem step (h : DiffersOnlyAt tree other place) (hplace : tree.entry? place ≠ some .folder)
    (hok : tree.step names piece = .ok parent) : other.step names piece = .ok parent := by
  obtain ⟨_, hfolder, hok⟩ := bind_eq_ok_iff.mp hok
  exact bind_eq_ok_iff.mpr ⟨_, h.requireFolder hplace hfolder, hok⟩

/-- A way through folders leads where it led. -/
theorem foldlM (h : DiffersOnlyAt tree other place) (hplace : tree.entry? place ≠ some .folder)
    {pieces : List String} (hok : pieces.foldlM tree.step names = .ok parent) :
    pieces.foldlM other.step names = .ok parent := by
  induction pieces generalizing names with
  | nil => exact hok
  | cons piece pieces ih =>
      rw [List.foldlM_cons] at hok ⊢
      obtain ⟨next, hstep, hok⟩ := bind_eq_ok_iff.mp hok
      exact bind_eq_ok_iff.mpr ⟨next, h.step hplace hstep, ih hok⟩

end DiffersOnlyAt

/-- The way to the place where a file can be written: the last piece of the path is a name in a
folder that the others lead to, and no folder has that name. -/
theorem exists_of_target (h : tree.target path = .ok place) : path ≠ "" ∧
    ∃ before last parent, Path.pieces path = before ++ [last] ∧
      before.foldlM tree.step (tree.start path) = .ok parent ∧
      tree.requireFolder parent = .ok () ∧ (last ≠ "" ∧ last ≠ Path.here ∧ last ≠ Path.above) ∧
      place = parent ++ [last] ∧ tree.entry? place ≠ some .folder := by
  rw [target] at h
  by_cases hpath : path = ""
  · rw [if_pos hpath] at h
    cases h
  rw [if_neg hpath] at h
  refine ⟨hpath, ?_⟩
  dsimp only at h
  split at h
  · cases h
  · rename_i last before hbackward
    obtain ⟨parent, hparent, h⟩ := bind_eq_ok_iff.mp h
    obtain ⟨_, hfolder, h⟩ := bind_eq_ok_iff.mp h
    split at h
    · cases h
    · rename_i hname
      cases h
      obtain ⟨hempty, hhere, habove, hentry⟩ := by simpa only [not_or] using hname
      -- The last piece is not empty, so none was dropped at the end.
      have hpieces : (Path.pieces path).reverse = last :: before := by
        cases hreverse : (Path.pieces path).reverse with
        | nil =>
            rw [hreverse] at hbackward
            cases hbackward
        | cons piece pieces =>
            rw [hreverse] at hbackward hempty
            have hpiece : ¬ (piece == "") = true := by simpa using hempty
            rw [List.dropWhile_cons_of_neg (p := (· == "")) hpiece] at hbackward
            exact hbackward
      refine ⟨before.reverse, last, parent, ?_, hparent, hfolder, ⟨?_, hhere, habove⟩, rfl, hentry⟩
      · rw [← List.reverse_cons, ← hpieces, List.reverse_reverse]
      · rw [hpieces] at hempty
        simpa using hempty

/-- The path of a file that can be written leads to its place whatever lies there. -/
theorem DiffersOnlyAt.resolve (h : DiffersOnlyAt tree other place)
    (hplace : tree.target path = .ok place) : other.resolve path = .ok place := by
  obtain ⟨hpath, before, last, parent, hpieces, hparent, hfolder, hname, rfl, hentry⟩ :=
    exists_of_target hplace
  have hstart : other.start path = tree.start path := by
    rw [start, start, h.working]
  have hlast : other.step parent last = .ok (parent ++ [last]) := by
    refine bind_eq_ok_iff.mpr ⟨_, h.requireFolder hentry hfolder, ?_⟩
    rw [if_neg (not_or.mpr ⟨hname.1, hname.2.1⟩), if_neg hname.2.2]
    rfl
  rw [FileTree.resolve, if_neg hpath, hpieces, List.foldlM_append, hstart]
  refine bind_eq_ok_iff.mpr ⟨parent, h.foldlM hentry hparent, ?_⟩
  rw [List.foldlM_cons, hlast]
  rfl

/-- `Written tree path text other`: the text is in the file at the path, and all the rest is as it
was. -/
def Written (tree : FileTree) (path text : String) (other : FileTree) : Prop :=
  ∃ place, tree.target path = .ok place ∧ DiffersOnlyAt tree other place ∧
    other.entry? place = some (.file text.toUTF8.data.toList)

/-- A text that is written is read again under the path. -/
theorem Written.readText (h : Written tree path text other) : other.readText path = .ok text := by
  obtain ⟨place, htarget, hdiffers, hentry⟩ := h
  have hread : other.read path = .ok text.toUTF8.data.toList := by
    refine bind_eq_ok_iff.mpr ⟨place, hdiffers.resolve htarget, ?_⟩
    rw [hentry]
  have htext : String.fromUTF8? ⟨text.toUTF8.data.toList.toArray⟩ = some text := by
    simp only [String.fromUTF8?]
    exact dif_pos text.isValidUTF8
  refine bind_eq_ok_iff.mpr ⟨_, hread, ?_⟩
  rw [htext]

/-- A text is written where the path leads to a place of a file, and nothing else is changed. -/
theorem written_of_target (htarget : tree.target path = .ok place) (text : String) :
    ∃ other, tree.writeText path text = .ok other ∧ Written tree path text other := by
  have hne : place ≠ [] := by
    obtain ⟨_, _, _, _, _, _, _, _, rfl, _⟩ := exists_of_target htarget
    exact List.append_ne_nil_of_right_ne_nil _ (List.cons_ne_nil _ _)
  refine ⟨tree.set place (.file text.toUTF8.data.toList), ?_, place, htarget, ⟨rfl, ?_⟩, ?_⟩
  · exact bind_eq_ok_iff.mpr ⟨place, htarget, rfl⟩
  · intro names hnames
    rw [entry?_set _ _ hne, if_neg hnames]
  · rw [entry?_set _ _ hne, if_pos rfl]

/-- As an operation on the tree, a writing that is possible is done. -/
theorem files_writeText_of_target (htarget : tree.target path = .ok place) (text : String) :
    ∃ other, (files.writeText path text).run tree = (.ok (), other) ∧
      Written tree path text other := by
  obtain ⟨other, hwrite, hwritten⟩ := written_of_target htarget text
  refine ⟨other, ?_, hwritten⟩
  simp only [StateT.run, files, hwrite]

/-- Where the path leads to no place of a file, this is told and the tree stays as it is. -/
theorem files_writeText_of_fault {fault : FileFault} (htarget : tree.target path = .error fault)
    (text : String) : (files.writeText path text).run tree = (.error fault, tree) := by
  have hwrite : tree.writeText path text = .error fault := by
    rw [writeText, htarget]
    rfl
  simp only [StateT.run, files, hwrite]

end FileTree

end Respell
