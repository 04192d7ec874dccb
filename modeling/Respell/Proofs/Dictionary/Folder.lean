import Respell.Dictionary.Folder
import Respell.Files.Tree
import Respell.Proofs.Dictionary.Registry
import Respell.Proofs.Files.Path
import Respell.Proofs.Vocabulary.Document

/-!
# Dictionaries in folders

A folder is seen through operations on files, and `Files.Shows` says what is seen: its entries in
some order, in a state that reading does not change. Each document in it is loaded by itself, which
`Vocabulary.run_load` describes, and the vocabularies are registered one after the other. `gather`
is this registration alone. The names of the documents are different, and so are their stems, so no
vocabulary takes the place of another one. `Gathers` says what the dictionary holds then, and it
says so without an order: `loadFolder_gathers` states that it is what becomes of every folder of
which all documents can be loaded, and which document is reported otherwise.
-/

namespace Respell

variable {σ τ : Type} {files : Files (StateM σ)} {s : σ} {others : Files (StateM τ)} {t : τ}
  {folder path name : String} {names documents : List String}

/-- `files.Shows s folder names`: in the state `s`, which no reading changes, the folder has the
entries of these names and is listed in this order. -/
structure Files.Shows (files : Files (StateM σ)) (s : σ) (folder : String)
    (names : List String) : Prop where
  readText : ∀ path, ((files.readText path).run s).2 = s
  list : (files.list folder).run s = (some names, s)
  nodup : names.Nodup
  entryNames : ∀ name ∈ names, Path.IsEntryName name

/-- A tree of files shows a folder as it lists it. -/
theorem FileTree.files_shows {tree : FileTree} (hlist : tree.list folder = some names)
    (hnodup : names.Nodup) (hnames : ∀ name ∈ names, Path.IsEntryName name) :
    FileTree.files.Shows tree folder names where
  readText := fun _ => rfl
  list := by
    show (tree.list folder, tree) = (some names, tree)
    rw [hlist]
  nodup := hnodup
  entryNames := hnames

/-- Where an action leaves the state as it is, the next one begins in the same state. -/
theorem run_bind_of_run {α β : Type} {action : StateM σ α} {next : α → StateM σ β} {a : α}
    (h : action.run s = (a, s)) : (action >>= next).run s = (next a).run s := by
  show (next (action.run s).1).run (action.run s).2 = (next a).run s
  rw [h]

namespace Vocabulary

/-- The vocabulary of a file of this name when this is read from it. -/
def ofReading (name path : String) : Except FileFault String → Report Error Vocabulary
  | .ok document => ofDocument (Path.stem name) path document
  | .error fault => .ofExcept (.error (.unreadable path fault))

/-- What the file at the path is loaded as in the state `s`. -/
def loadAt (files : Files (StateM σ)) (s : σ) (path : String) : Report Error Vocabulary :=
  ((load files path).run s).1

/-- The path names the vocabulary, and what is read from the file makes it. -/
theorem run_load {text : Except FileFault String} (hname : Path.fileName? path = some name)
    (htext : (files.readText path).run s = (text, s)) :
    (load files path).run s = (ofReading name path text, s) := by
  rw [load, hname]
  dsimp only
  rw [run_bind_of_run htext]
  cases text <;> rfl

/-- A vocabulary that is read has the stem of the file for a name. -/
theorem name_of_ofReading {text : Except FileFault String} {v : Vocabulary}
    (h : (ofReading name path text).result = .ok v) : v.name = Path.stem name := by
  cases text with
  | ok document => exact name_of_ofDocument h
  | error fault => cases h

/-- No file is reported as a folder without documents. -/
theorem noneFound_not_mem_ofReading (folder name path : String)
    (text : Except FileFault String) :
    .noneFound folder ∉ (ofReading name path text).warnings := by
  intro h
  cases text with
  | ok document =>
      obtain ⟨_, _, hunusable⟩ := exists_unusable_of_ofDocument h
      cases hunusable
  | error fault => cases h

end Vocabulary

namespace Files.Shows

open Vocabulary (load loadAt ofReading)

/-- Reading finds a text or a fault in the state of the folder. -/
theorem run_readText (h : files.Shows s folder names) (path : String) :
    (files.readText path).run s = (((files.readText path).run s).1, s) :=
  Prod.ext rfl (h.readText path)

/-- An entry of the folder is loaded from its text and leaves the state as it is. -/
theorem run_load (h : files.Shows s folder names) (hmem : name ∈ names) :
    (load files (Path.join folder name)).run s = (loadAt files s (Path.join folder name), s) := by
  have hrun := Vocabulary.run_load (Path.fileName?_join folder (h.entryNames name hmem))
    (h.run_readText (Path.join folder name))
  rw [loadAt, hrun]

/-- What an entry of the folder is loaded as. -/
theorem loadAt_eq (h : files.Shows s folder names) (hmem : name ∈ names) :
    loadAt files s (Path.join folder name) = ofReading name (Path.join folder name)
      ((files.readText (Path.join folder name)).run s).1 := by
  rw [loadAt, Vocabulary.run_load (Path.fileName?_join folder (h.entryNames name hmem))
    (h.run_readText (Path.join folder name))]

/-- The vocabulary of an entry has the stem of the entry for a name. -/
theorem name_of_loadAt (h : files.Shows s folder names) (hmem : name ∈ names) {v : Vocabulary}
    (hv : (loadAt files s (Path.join folder name)).result = .ok v) : v.name = Path.stem name := by
  rw [h.loadAt_eq hmem] at hv
  exact Vocabulary.name_of_ofReading hv

end Files.Shows

namespace Dictionary

variable {d other : Dictionary} {load load' : String → Report Error Vocabulary}

/-- The name is that of a document exactly when it is a stem with the extension of documents. -/
theorem isDocument_iff : isDocument name = true ↔
    ∃ stem, stem ≠ "" ∧ name = stem ++ "." ++ documentExtension ∧ Path.stem name = stem := by
  rw [isDocument, beq_iff_eq, Path.extension?, Option.map_eq_some_iff]
  constructor
  · rintro ⟨⟨stem, _⟩, hsplit, rfl⟩
    obtain ⟨hname, hstem, _⟩ := Path.splitExtension_eq_some_iff.mp hsplit
    exact ⟨stem, hstem, hname, by rw [Path.stem, hsplit]⟩
  · rintro ⟨stem, hstem, hname, _⟩
    exact ⟨(stem, documentExtension),
      Path.splitExtension_eq_some_iff.mpr ⟨hname, hstem, by decide⟩, rfl⟩

/-- The documents of a folder are known by their stems. -/
theorem nodup_stems (h : names.Nodup) : ((names.filter isDocument).map Path.stem).Nodup := by
  refine (h.filter _).map_on fun a ha b hb heq => ?_
  have hdocument : ∀ {c}, c ∈ names.filter isDocument →
      c = Path.stem c ++ "." ++ documentExtension := fun hc =>
    Path.eq_of_extension? (eq_of_beq (List.mem_filter.mp hc).2)
  rw [hdocument ha, hdocument hb, heq]

/-- A vocabulary is found under a name exactly when it is registered there. -/
theorem get_eq_ok_iff {subset : String} {v : Vocabulary} :
    d.get subset = .ok v ↔ (subset, v) ∈ d.subsets.entries := by
  rw [SortedMap.mem_entries_iff, get]
  cases d.subsets.get? subset with
  | none => simp
  | some found => simp

/-- Dictionaries in which the same is found are the same. -/
theorem eq_of_get_eq (h : ∀ subset, d.get subset = other.get subset) : d = other := by
  have hsubsets : d.subsets = other.subsets := SortedMap.eq_of_mem_iff fun subset v => by
    rw [← get_eq_ok_iff, ← get_eq_ok_iff, h]
  cases d
  cases other
  cases hsubsets
  rfl

/-- The dictionary `d` with the vocabularies of the documents, in their order. The first one that
cannot be loaded ends the registration. -/
def gather (load : String → Report Error Vocabulary) :
    List String → Dictionary → Report Error Dictionary
  | [], d => .ofExcept (.ok d)
  | name :: names, d =>
    match (load name).result with
    | .error e => ⟨(load name).warnings, .error e⟩
    | .ok v =>
      let others := gather load names (d.insert v)
      ⟨(load name).warnings ++ others.warnings, others.result⟩

/-- `d.Gathers load documents`: the dictionary has one vocabulary for each of the documents, which
is the one that the document is loaded as, under the stem of its name, and no other. -/
structure Gathers (d : Dictionary) (load : String → Report Error Vocabulary)
    (documents : List String) : Prop where
  names : d.names.Perm (documents.map Path.stem)
  loaded : ∀ name ∈ documents, ∃ v, (load name).result = .ok v ∧ d.get (Path.stem name) = .ok v

/-- A first document ends the registration, or the others are registered after it. -/
theorem gather_cons (load : String → Report Error Vocabulary) (name : String) (names : List String)
    (d : Dictionary) :
    (∃ e, (load name).result = .error e ∧
      gather load (name :: names) d = ⟨(load name).warnings, .error e⟩) ∨
    ∃ v, (load name).result = .ok v ∧ gather load (name :: names) d =
      ⟨(load name).warnings ++ (gather load names (d.insert v)).warnings,
        (gather load names (d.insert v)).result⟩ := by
  cases hname : (load name).result with
  | error e => exact Or.inl ⟨e, rfl, by rw [gather, hname]⟩
  | ok v => exact Or.inr ⟨v, rfl, by rw [gather, hname]⟩

/-- Where every document can be loaded, a dictionary comes out. -/
theorem exists_gather (h : ∀ name ∈ documents, ∃ v, (load name).result = .ok v) (d : Dictionary) :
    ∃ other, (gather load documents d).result = .ok other := by
  induction documents generalizing d with
  | nil => exact ⟨d, rfl⟩
  | cons name documents ih =>
      obtain ⟨v, hv⟩ := h name List.mem_cons_self
      rcases gather_cons load name documents d with ⟨e, he, _⟩ | ⟨w, _, hgather⟩
      · cases hv.symm.trans he
      · rw [hgather]
        exact ih (fun other hother => h other (List.mem_cons_of_mem _ hother)) _

/-- The error is that of the first document that cannot be loaded. -/
theorem gather_eq_error_iff {e : Error} : (gather load documents d).result = .error e ↔
    ∃ front name back, documents = front ++ name :: back ∧
      (∀ other ∈ front, ∃ v, (load other).result = .ok v) ∧ (load name).result = .error e := by
  induction documents generalizing d with
  | nil =>
      refine iff_of_false (fun h => by cases h) ?_
      rintro ⟨front, name, back, hnil, _⟩
      exact List.append_ne_nil_of_right_ne_nil _ (List.cons_ne_nil _ _) hnil.symm
  | cons name documents ih =>
      rcases gather_cons load name documents d with ⟨f, hf, hgather⟩ | ⟨v, hv, hgather⟩
      · rw [hgather]
        constructor
        · intro h
          cases h
          exact ⟨[], name, documents, rfl, List.forall_mem_nil _, hf⟩
        · rintro ⟨front, faulty, back, happend, hfront, he⟩
          cases front with
          | nil =>
              cases happend
              cases hf.symm.trans he
              rfl
          | cons first front =>
              cases happend
              obtain ⟨v, hv⟩ := hfront name List.mem_cons_self
              cases hv.symm.trans hf
      · rw [hgather]
        refine ih.trans ⟨?_, ?_⟩
        · rintro ⟨front, faulty, back, rfl, hfront, he⟩
          exact ⟨name :: front, faulty, back, rfl, List.forall_mem_cons.mpr ⟨⟨v, hv⟩, hfront⟩, he⟩
        · rintro ⟨front, faulty, back, happend, hfront, he⟩
          cases front with
          | nil =>
              cases happend
              cases hv.symm.trans he
          | cons first front =>
              cases happend
              exact ⟨front, faulty, back, rfl, (List.forall_mem_cons.mp hfront).2, he⟩

/-- Documents that are loaded as the same are registered the same way. -/
theorem gather_congr (h : ∀ name ∈ documents, load' name = load name) (d : Dictionary) :
    gather load' documents d = gather load documents d := by
  induction documents generalizing d with
  | nil => rfl
  | cons name documents ih =>
      obtain ⟨hname, hothers⟩ := List.forall_mem_cons.mp h
      rw [gather, gather, hname]
      simp only [ih hothers]

/-- Every warning is one about a document. -/
theorem exists_of_mem_warnings {warning : Warning}
    (h : warning ∈ (gather load documents d).warnings) :
    ∃ name ∈ documents, warning ∈ (load name).warnings := by
  induction documents generalizing d with
  | nil => cases h
  | cons name documents ih =>
      rcases gather_cons load name documents d with ⟨e, _, hgather⟩ | ⟨v, _, hgather⟩
      · rw [hgather] at h
        exact ⟨name, List.mem_cons_self, h⟩
      · rw [hgather] at h
        rcases List.mem_append.mp h with h | h
        · exact ⟨name, List.mem_cons_self, h⟩
        · obtain ⟨faulty, hmem, hwarning⟩ := ih h
          exact ⟨faulty, List.mem_cons_of_mem _ hmem, hwarning⟩

/-- Documents of different stems are all found afterwards, and nothing else has changed. -/
theorem get_of_gather (hnodup : (documents.map Path.stem).Nodup)
    (hnames : ∀ name ∈ documents, ∀ v, (load name).result = .ok v → v.name = Path.stem name)
    (h : (gather load documents d).result = .ok other) :
    (∀ name ∈ documents, ∃ v, (load name).result = .ok v ∧
      other.get (Path.stem name) = .ok v) ∧
    ∀ subset ∉ documents.map Path.stem, other.get subset = d.get subset := by
  induction documents generalizing d with
  | nil =>
      cases h
      exact ⟨List.forall_mem_nil _, fun _ _ => rfl⟩
  | cons name documents ih =>
      rw [List.map_cons, List.nodup_cons] at hnodup
      rcases gather_cons load name documents d with ⟨e, _, hgather⟩ | ⟨v, hv, hgather⟩
      · rw [hgather] at h
        cases h
      · rw [hgather] at h
        obtain ⟨hname, hothers⟩ := List.forall_mem_cons.mp hnames
        obtain ⟨hloaded, hsame⟩ := ih hnodup.2 hothers h
        have hstem : v.name = Path.stem name := hname v hv
        refine ⟨List.forall_mem_cons.mpr ⟨⟨v, hv, ?_⟩, hloaded⟩, fun subset hsubset => ?_⟩
        · rw [hsame _ hnodup.1, get_insert, if_pos hstem.symm]
        · rw [List.map_cons, List.mem_cons, not_or] at hsubset
          rw [hsame _ hsubset.2, get_insert, hstem, if_neg hsubset.1]

/-- Two dictionaries that gather the same documents are the same. -/
theorem Gathers.unique (h : d.Gathers load documents) (h' : other.Gathers load documents) :
    d = other := by
  refine eq_of_get_eq fun subset => ?_
  by_cases hsubset : subset ∈ documents.map Path.stem
  · obtain ⟨name, hname, rfl⟩ := List.mem_map.mp hsubset
    obtain ⟨v, hv, hget⟩ := h.loaded name hname
    obtain ⟨w, hw, hget'⟩ := h'.loaded name hname
    cases hv.symm.trans hw
    rw [hget, hget']
  · have hunknown : ∀ {d : Dictionary}, d.Gathers load documents →
        d.get subset = .error (.unknownSubset subset) := fun h =>
      get_eq_error_iff.mpr ⟨fun hmem => hsubset (h.names.mem_iff.mp hmem), rfl⟩
    rw [hunknown h, hunknown h']

/-- Neither the order of the documents nor anything but what they are loaded as matters. -/
theorem Gathers.congr {listing : List String} (hperm : listing.Perm documents)
    (hload : ∀ name ∈ documents, (load' name).result = (load name).result) :
    d.Gathers load' listing ↔ d.Gathers load documents := by
  constructor
  · intro h
    refine ⟨h.names.trans (hperm.map _), fun name hname => ?_⟩
    rw [← hload name hname]
    exact h.loaded name (hperm.mem_iff.mpr hname)
  · intro h
    refine ⟨h.names.trans (hperm.map _).symm, fun name hname => ?_⟩
    rw [hload name (hperm.mem_iff.mp hname)]
    exact h.loaded name (hperm.mem_iff.mp hname)

/-- What comes out of documents of different stems is the dictionary that gathers them. -/
theorem gather_eq_ok_iff (hnodup : (documents.map Path.stem).Nodup)
    (hnames : ∀ name ∈ documents, ∀ v, (load name).result = .ok v → v.name = Path.stem name) :
    (gather load documents empty).result = .ok d ↔ d.Gathers load documents := by
  have hgathers : ∀ {d}, (gather load documents empty).result = .ok d →
      d.Gathers load documents := by
    intro d h
    obtain ⟨hloaded, hsame⟩ := get_of_gather hnodup hnames h
    refine ⟨(List.perm_ext_iff_of_nodup (SortedMap.nodup_keys _) hnodup).mpr fun subset => ?_,
      hloaded⟩
    show subset ∈ d.names ↔ _
    rw [mem_names_iff]
    constructor
    · rintro ⟨v, hv⟩
      by_contra hnot
      cases (hsame subset hnot).symm.trans hv
    · intro hsubset
      obtain ⟨name, hname, rfl⟩ := List.mem_map.mp hsubset
      obtain ⟨v, _, hget⟩ := hloaded name hname
      exact ⟨v, hget⟩
  refine ⟨hgathers, fun h => ?_⟩
  -- Some dictionary comes out, and only one gathers the documents.
  obtain ⟨other, hother⟩ := exists_gather (fun name hname => (h.loaded name hname).imp
    fun _ hv => hv.1) empty
  rw [hother, h.unique (hgathers hother)]

/-- The documents are read one after the other in the same state, so only the registration of what
they are loaded as is left. -/
theorem run_loadEntries
    (h : ∀ name ∈ documents,
      (Vocabulary.load files (Path.join folder name)).run s = (load name, s)) (d : Dictionary) :
    (loadEntries files folder documents d).run s = (gather load documents d, s) := by
  induction documents generalizing d with
  | nil => rfl
  | cons name documents ih =>
      obtain ⟨hname, hothers⟩ := List.forall_mem_cons.mp h
      rw [loadEntries, run_bind_of_run hname]
      rcases gather_cons load name documents d with ⟨e, he, hgather⟩ | ⟨v, hv, hgather⟩
      · rw [he, hgather]
        rfl
      · rw [hv, hgather]
        dsimp only
        rw [run_bind_of_run (ih hothers (d.insert v))]
        rfl

/-- What the folder is loaded as in the state `s`. -/
def loadFolderAt (files : Files (StateM σ)) (s : σ) (folder : String) : Report Error Dictionary :=
  ((loadFolder files folder).run s).1

/-- A folder is loaded as what its documents are, with a warning when there are none. -/
theorem loadFolderAt_eq (h : files.Shows s folder names) : loadFolderAt files s folder =
    if names.filter isDocument = [] then ⟨[.noneFound folder], .ok empty⟩
    else gather (fun name => Vocabulary.loadAt files s (Path.join folder name))
      (names.filter isDocument) empty := by
  rw [loadFolderAt, loadFolder, run_bind_of_run h.list]
  dsimp only
  by_cases hempty : names.filter isDocument = []
  · rw [if_pos hempty, hempty]
    rfl
  · rw [if_neg hempty, if_neg fun hisEmpty => hempty (List.isEmpty_iff.mp hisEmpty),
      run_loadEntries fun name hname => h.run_load (List.mem_filter.mp hname).1]

/-- Whether the folder holds documents or not, what becomes of it is their registration. -/
theorem result_loadFolderAt (h : files.Shows s folder names) :
    (loadFolderAt files s folder).result =
      (gather (fun name => Vocabulary.loadAt files s (Path.join folder name))
        (names.filter isDocument) empty).result := by
  rw [loadFolderAt_eq h]
  split
  · rename_i hempty
    rw [hempty]
    rfl
  · rfl

/-- That nothing was found is told exactly when there is no document. -/
theorem noneFound_mem_loadFolderAt_iff (h : files.Shows s folder names) :
    .noneFound folder ∈ (loadFolderAt files s folder).warnings ↔
      names.filter isDocument = [] := by
  rw [loadFolderAt_eq h]
  by_cases hempty : names.filter isDocument = []
  · rw [if_pos hempty]
    exact iff_of_true List.mem_cons_self hempty
  · rw [if_neg hempty]
    refine iff_of_false (fun hmem => ?_) hempty
    obtain ⟨name, hname, hwarning⟩ := exists_of_mem_warnings hmem
    rw [h.loadAt_eq (List.mem_filter.mp hname).1] at hwarning
    exact Vocabulary.noneFound_not_mem_ofReading folder name _ _ hwarning

/-- A dictionary comes out of a folder exactly when it gathers the documents. -/
theorem loadFolderAt_eq_ok_iff (h : files.Shows s folder names) :
    (loadFolderAt files s folder).result = .ok d ↔
      d.Gathers (fun name => Vocabulary.loadAt files s (Path.join folder name))
        (names.filter isDocument) := by
  rw [result_loadFolderAt h]
  exact gather_eq_ok_iff (nodup_stems h.nodup) fun name hname _ hv =>
    h.name_of_loadAt (List.mem_filter.mp hname).1 hv

/-- **A folder is loaded as all of its documents.** A document is an entry with a stem before the
extension. If every document can be loaded by itself, the dictionary has one vocabulary for each, by
the name of the stem, and no other; else the first faulty document in the listing is the error. A
warning that there are none is given exactly when there are none. The folder may be listed in
another order and have other entries that are no documents: the dictionary is the same, and if the
documents stay in their order, so are the error and the warnings. -/
theorem loadFolder_gathers (h : files.Shows s folder names) :
    let documents := names.filter isDocument
    let load := fun name => Vocabulary.loadAt files s (Path.join folder name)
    let report := loadFolderAt files s folder
    (∀ name, name ∈ documents ↔ name ∈ names ∧
      ∃ stem, stem ≠ "" ∧ name = stem ++ "." ++ documentExtension ∧ Path.stem name = stem) ∧
    ((∃ d, report.result = .ok d) ↔ ∀ name ∈ documents, ∃ v, (load name).result = .ok v) ∧
    (∀ d, report.result = .ok d ↔ d.Gathers load documents) ∧
    (∀ e, report.result = .error e ↔ ∃ front name back, documents = front ++ name :: back ∧
      (∀ other ∈ front, ∃ v, (load other).result = .ok v) ∧ (load name).result = .error e) ∧
    (.noneFound folder ∈ report.warnings ↔ documents = []) ∧
    ∀ (τ : Type) (others : Files (StateM τ)) (t : τ) (listing : List String),
      others.Shows t folder listing → (listing.filter isDocument).Perm documents →
      (∀ name ∈ documents, ((others.readText (Path.join folder name)).run t).1 =
        ((files.readText (Path.join folder name)).run s).1) →
      (∀ d, (loadFolderAt others t folder).result = .ok d ↔ report.result = .ok d) ∧
      (listing.filter isDocument = documents → loadFolderAt others t folder = report) := by
  intro documents load report
  have hresult : ∀ d, report.result = .ok d ↔ d.Gathers load documents := fun d =>
    loadFolderAt_eq_ok_iff h
  refine ⟨fun name => ?_, ⟨?_, ?_⟩, hresult, fun e => ?_, noneFound_mem_loadFolderAt_iff h, ?_⟩
  · rw [List.mem_filter, isDocument_iff]
  · rintro ⟨d, hd⟩ name hname
    obtain ⟨v, hv, _⟩ := ((hresult d).mp hd).loaded name hname
    exact ⟨v, hv⟩
  · intro hloaded
    obtain ⟨d, hd⟩ := exists_gather hloaded empty
    exact ⟨d, (result_loadFolderAt h).trans hd⟩
  · rw [show report.result = _ from result_loadFolderAt h]
    exact gather_eq_error_iff
  · intro τ others t listing h' hperm htexts
    -- Equal texts under equal paths are loaded as the same.
    have hload : ∀ name ∈ documents,
        Vocabulary.loadAt others t (Path.join folder name) = load name := by
      intro name hname
      rw [h'.loadAt_eq (List.mem_filter.mp (hperm.mem_iff.mpr hname)).1, htexts name hname]
      exact (h.loadAt_eq (List.mem_filter.mp hname).1).symm
    refine ⟨fun d => ?_, fun hsame => ?_⟩
    · rw [hresult, loadFolderAt_eq_ok_iff h']
      exact Gathers.congr hperm fun name hname => congrArg Report.result (hload name hname)
    · rw [loadFolderAt_eq h', hsame, gather_congr hload]
      exact (loadFolderAt_eq h).symm

/-- Two documents are loaded from two folders that list them in different orders, one of them among
other entries. -/
theorem loadFolder_gathers_in_any_order :
    let entry := fun (path text : String) (tree : FileTree) =>
      tree.add path (.file text.toUTF8.data.toList)
    let plain := entry "sets/plain.json" "\x7b\"if\":\"if\"\x7d"
    let short := entry "sets/short.json" "\x7b\"if\":\"when\"\x7d"
    let tree := plain (entry "sets/.json" "x" (short (entry "sets/a.txt" "" (FileTree.empty []))))
    let other := short (plain (FileTree.empty []))
    FileTree.files.Shows tree "sets" ["a.txt", "short.json", ".json", "plain.json"] ∧
      FileTree.files.Shows other "sets" ["plain.json", "short.json"] ∧
      ∃ d : Dictionary, d.names.Perm ["short", "plain"] ∧
        (loadFolderAt FileTree.files tree "sets").result = .ok d ∧
        (loadFolderAt FileTree.files other "sets").result = .ok d ∧
        .noneFound "sets" ∉ (loadFolderAt FileTree.files tree "sets").warnings := by
  intro entry plain short tree other
  have hshows : FileTree.files.Shows tree "sets" ["a.txt", "short.json", ".json", "plain.json"] :=
    FileTree.files_shows (by decide +kernel) (by decide) (by decide)
  have hshows' : FileTree.files.Shows other "sets" ["plain.json", "short.json"] :=
    FileTree.files_shows (by decide +kernel) (by decide) (by decide)
  obtain ⟨_, hiff, hresult, _, hnone, hothers⟩ := loadFolder_gathers hshows
  have hdocuments : ["a.txt", "short.json", ".json", "plain.json"].filter isDocument =
      ["short.json", "plain.json"] := by decide +kernel
  rw [hdocuments] at hiff hresult hnone hothers
  have hloaded : ∀ name ∈ ["short.json", "plain.json"],
      (Vocabulary.loadAt FileTree.files tree (Path.join "sets" name)).result.isOk = true := by
    decide +kernel
  obtain ⟨d, hd⟩ := hiff.mpr fun name hname => by
    have hok := hloaded name hname
    cases hname : (Vocabulary.loadAt FileTree.files tree (Path.join "sets" name)).result with
    | error e =>
        rw [hname] at hok
        cases hok
    | ok v => exact ⟨v, rfl⟩
  refine ⟨hshows, hshows', d, ((hresult d).mp hd).names.trans ?_, hd, ?_, fun hwarning => ?_⟩
  · decide +kernel
  · exact ((hothers FileTree FileTree.files other _ hshows' (by decide +kernel)
      (by decide +kernel)).1 d).mpr hd
  · cases hnone.mp hwarning

end Dictionary

end Respell
