import Respell.CommandLine.Run
import Respell.Proofs.Files.Reading
import Respell.Proofs.Files.Tree

/-!
# What a run of the command line does

A run on a tree of files is a computation that notes events, may fail, and may change the tree.
`Ends` is its result without the notes, and the lemmas after it compose results step by step.
`job_cases` sums up how a run ends: it fails and leaves the tree as it is, it lists the subsets, or
it translates and gives the text out in one of two ways. `run_agrees` states the contract of the
command line for every run, and `run_listSubsets` adds that a list of the subsets depends neither on
the text nor on how a text could be written.

The runs are those on a tree, so they rest on what `FileTree.files` assumes: a text that can be
written at all is written as a whole. A list of the subsets writes nothing, and `run_listSubsets` is
about every surroundings.
-/

namespace Respell.CommandLine

section Ends

variable {α β : Type} {tree mid other : FileTree} {failure : Failure} {a : α}
  {result : Except Failure β}

/-- The job, started with `tree`, ends with the result and leaves `other`, whatever was noted
before. -/
def Ends (job : Job (StateM FileTree) α) (tree : FileTree) (result : Except Failure α)
    (other : FileTree) : Prop :=
  ∀ events, ∃ noted, (job.run.run events).run tree = ((result, noted), other)

theorem ends_pure (a : α) (tree : FileTree) : Ends (pure a) tree (.ok a) tree :=
  fun events => ⟨events, rfl⟩

theorem ends_throw (failure : Failure) (tree : FileTree) :
    Ends (throw failure : Job _ α) tree (.error failure) tree :=
  fun events => ⟨events, rfl⟩

theorem ends_note (events : List Event) (tree : FileTree) : Ends (note events) tree (.ok ()) tree :=
  fun before => ⟨before ++ events, rfl⟩

theorem ends_perform (action : StateM FileTree α) (tree : FileTree) :
    Ends (perform action) tree (.ok (action.run tree).1) (action.run tree).2 :=
  fun events => ⟨events, rfl⟩

theorem Ends.bind {job : Job (StateM FileTree) α} {next : α → Job (StateM FileTree) β}
    (h : Ends job tree (.ok a) mid) (hnext : Ends (next a) mid result other) :
    Ends (job >>= next) tree result other := by
  intro events
  obtain ⟨noted, hjob⟩ := h events
  obtain ⟨noted', hrest⟩ := hnext noted
  refine ⟨noted', ?_⟩
  rw [ExceptT.run_bind, StateT.run_bind, StateT.run_bind, hjob]
  exact hrest

theorem Ends.bind_error {job : Job (StateM FileTree) α} {next : α → Job (StateM FileTree) β}
    (h : Ends job tree (.error failure) mid) : Ends (job >>= next) tree (.error failure) mid := by
  intro events
  obtain ⟨noted, hjob⟩ := h events
  refine ⟨noted, ?_⟩
  rw [ExceptT.run_bind, StateT.run_bind, StateT.run_bind, hjob]
  rfl

/-- Something that only reads is performed without a change. -/
theorem ends_perform_of_onlyReads {action : StateM FileTree α} (h : OnlyReads action)
    (tree : FileTree) : Ends (perform action) tree (.ok (action.run tree).1) tree := by
  have hperform := ends_perform action tree
  rw [h tree] at hperform
  exact hperform

/-- A result that is required is the one of the job. -/
theorem ends_require (found : Except Error α) (tree : FileTree) :
    Ends (require found) tree (found.mapError .refused) tree := by
  cases found with
  | ok a => exact ends_pure a tree
  | error e => exact ends_throw _ tree

end Ends

section Stages

/-- The settings in the file that is named, or the default ones. -/
def givenSettings (tree : FileTree) (options : Options) : Except Error Settings :=
  match options.value? .settings with
  | some path => ((Settings.load FileTree.files path).run tree).1
  | none => .ok Settings.default

/-- The settings of a run: the given ones with the folder that is named. -/
def settingsOf (tree : FileTree) (options : Options) : Except Error Settings := do
  let settings ← givenSettings tree options
  return { settings with folder := (options.value? .folder).or settings.folder }

/-- The respeller of the settings. -/
def respellerOf (tree : FileTree) (settings : Settings) : Except Error Respeller :=
  ((Respeller.load FileTree.files settings).run tree).1.result

/-- The text to respell: that of the file that is named, or else, as for a dash, of the standard
input. -/
def sourceOf (input : Option String) (tree : FileTree) (options : Options) :
    Except Failure String :=
  match options.input.filter (· ≠ "-") with
  | some path => (tree.readText path).mapError (.input path)
  | none => input.elim (.error .standardInput) .ok

/-- The settings, the dictionary and the source can be read, and the library gives this text for
them. -/
def Translates (input : Option String) (tree : FileTree) (options : Options) (text : String) :
    Prop :=
  ∃ settings respeller source respelled, settingsOf tree options = .ok settings ∧
    respellerOf tree settings = .ok respeller ∧ sourceOf input tree options = .ok source ∧
    respeller.respell source options.choice = .ok respelled ∧ respelled.text = text

/-- The file for the text, if one is named, can be written. -/
def CanWrite (tree : FileTree) (options : Options) : Prop :=
  ∀ path, options.value? .output = some path → ∃ place, tree.target path = .ok place

variable (input : Option String) (tree : FileTree) (options : Options)

theorem ends_readSettings : Ends (readSettings (treeHost input) options) tree
    ((settingsOf tree options).mapError .refused) tree := by
  rw [readSettings, settingsOf, givenSettings]
  cases options.value? .settings with
  | none => exact (ends_pure _ tree).bind (ends_pure _ tree)
  | some path =>
      refine (ends_perform_of_onlyReads (Settings.onlyReads_load path) tree).bind ?_
      dsimp only [treeHost]
      cases ((Settings.load FileTree.files path).run tree).1 with
      | ok settings => exact (ends_pure _ tree).bind (ends_pure _ tree)
      | error e => exact (ends_throw _ tree).bind_error

theorem ends_readSource : Ends (readSource (treeHost input) options) tree
    (sourceOf input tree options) tree := by
  have hstandard : Ends (readSource.readStandard (treeHost input)) tree
      (input.elim (.error .standardInput) .ok) tree := by
    refine (ends_perform (pure input) tree).bind ?_
    cases input with
    | some text => exact ends_pure text tree
    | none => exact ends_throw _ tree
  rw [readSource, sourceOf]
  cases options.input with
  | none => exact hstandard
  | some path =>
      by_cases hdash : path = "-"
      · simp only [hdash, if_true]
        exact hstandard
      · have hfile : (some path).filter (· ≠ "-") = some path := by simp [hdash]
        simp only [hdash, if_false, hfile]
        refine (ends_perform_of_onlyReads (onlyReads_readText path) tree).bind ?_
        have hresult : ((FileTree.files.readText path).run tree).1 = tree.readText path := rfl
        rw [hresult]
        cases tree.readText path with
        | ok text => exact ends_pure text tree
        | error fault => exact ends_throw _ tree

/-- The respeller is the one of the settings, or the reason why there is none. -/
theorem ends_loadRespeller : Ends (loadRespeller (treeHost input) options) tree
    ((settingsOf tree options >>= respellerOf tree).mapError .refused) tree := by
  have hsettings := ends_readSettings input tree options
  cases hfound : settingsOf tree options with
  | error e =>
      rw [hfound] at hsettings
      exact hsettings.bind_error
  | ok settings =>
      rw [hfound] at hsettings
      refine hsettings.bind ?_
      refine (ends_perform_of_onlyReads (Respeller.onlyReads_load settings) tree).bind ?_
      exact (ends_note _ tree).bind (ends_require _ tree)

/-- A text is given out on the standard output, or in the file that is named, or not at all where
that file cannot be written. -/
theorem giveOut_cases (text : String) :
    (options.value? .output = none ∧
      Ends (giveOut (treeHost input) options text) tree (.ok text) tree) ∨
    (∃ path other, options.value? .output = some path ∧ FileTree.Written tree path text other ∧
      Ends (giveOut (treeHost input) options text) tree (.ok "") other) ∨
    (¬ CanWrite tree options ∧
      ∃ failure, Ends (giveOut (treeHost input) options text) tree (.error failure) tree) := by
  rw [giveOut, CanWrite]
  cases options.value? .output with
  | none => exact Or.inl ⟨rfl, ends_pure text tree⟩
  | some path =>
      have hperform := ends_perform ((treeHost input).files.writeText path text) tree
      cases htarget : tree.target path with
      | ok place =>
          obtain ⟨other, hdone, hwritten⟩ := FileTree.files_writeText_of_target htarget text
          refine Or.inr (Or.inl ⟨path, other, rfl, hwritten, ?_⟩)
          rw [treeHost, hdone] at hperform
          exact hperform.bind ((ends_note _ other).bind (ends_pure "" other))
      | error fault =>
          refine Or.inr (Or.inr ⟨fun h => ?_, .output path fault, ?_⟩)
          · obtain ⟨place, hplace⟩ := h path rfl
            rw [htarget] at hplace
            cases hplace
          · rw [treeHost, FileTree.files_writeText_of_fault htarget] at hperform
            exact hperform.bind (ends_throw _ tree)

/-- A source is respelled when it can be read, and its text is given out. -/
theorem respellSource_cases (respeller : Respeller) :
    (∃ failure, Ends (respellSource (treeHost input) options respeller) tree (.error failure) tree ∧
      ∀ source respelled, sourceOf input tree options = .ok source →
        respeller.respell source options.choice ≠ .ok respelled) ∨
    ∃ source respelled, sourceOf input tree options = .ok source ∧
      respeller.respell source options.choice = .ok respelled ∧
      ∀ result other, Ends (giveOut (treeHost input) options respelled.text) tree result other →
        Ends (respellSource (treeHost input) options respeller) tree result other := by
  have hread := ends_readSource input tree options
  rw [respellSource]
  cases hsource : sourceOf input tree options with
  | error failure =>
      rw [hsource] at hread
      exact Or.inl ⟨failure, hread.bind_error, fun _ _ h => by cases h⟩
  | ok source =>
      rw [hsource] at hread
      have hrequire := ends_require (respeller.respell source options.choice) tree
      cases respeller.resolve options.choice with
      | mk spoken wanted =>
          cases hrespelled : respeller.respell source options.choice with
          | error e =>
              rw [hrespelled] at hrequire
              refine Or.inl ⟨.refused e, hread.bind ((ends_note _ tree).bind ?_), ?_⟩
              · show Ends (require (respeller.respell source options.choice) >>= _) tree _ tree
                rw [hrespelled]
                exact hrequire.bind_error
              · rintro _ respelled ⟨⟩ h
                cases hrespelled.symm.trans h
          | ok respelled =>
              rw [hrespelled] at hrequire
              refine Or.inr ⟨source, respelled, rfl, hrespelled, fun result other hout => ?_⟩
              refine hread.bind ((ends_note _ tree).bind ?_)
              show Ends (require (respeller.respell source options.choice) >>= _) tree result other
              rw [hrespelled]
              exact hrequire.bind ((ends_note _ tree).bind hout)

/-- A run fails and leaves the tree as it is, or lists the subsets, or gives a respelled text out.
Where it should respell a text, it fails only when there is no such text or no place for it. -/
theorem job_cases :
    (∃ failure, Ends (job (treeHost input) options) tree (.error failure) tree ∧
      (options.has .listSubsets = false → ∀ text, Translates input tree options text →
        ¬ CanWrite tree options)) ∨
    (options.has .listSubsets = true ∧
      ∃ out, Ends (job (treeHost input) options) tree (.ok out) tree) ∨
    (options.has .listSubsets = false ∧ ∃ text, Translates input tree options text ∧
      ((options.value? .output = none ∧ Ends (job (treeHost input) options) tree (.ok text) tree) ∨
        ∃ path other, options.value? .output = some path ∧ FileTree.Written tree path text other ∧
          Ends (job (treeHost input) options) tree (.ok "") other)) := by
  have hload := ends_loadRespeller input tree options
  rw [job]
  cases hsettings : settingsOf tree options with
  | error e =>
      rw [hsettings] at hload
      refine Or.inl ⟨_, hload.bind_error, ?_⟩
      rintro _ text ⟨settings, _, _, _, h, _⟩
      cases hsettings.symm.trans h
  | ok settings =>
      rw [hsettings] at hload
      change Ends _ tree ((respellerOf tree settings).mapError .refused) tree at hload
      cases hrespeller : respellerOf tree settings with
      | error e =>
          rw [hrespeller] at hload
          refine Or.inl ⟨_, hload.bind_error, ?_⟩
          rintro _ text ⟨settings', _, _, _, h, h', _⟩
          cases hsettings.symm.trans h
          cases hrespeller.symm.trans h'
      | ok respeller =>
          rw [hrespeller] at hload
          cases hlist : options.has .listSubsets with
          | true => exact Or.inr (Or.inl ⟨rfl, _, hload.bind (ends_pure _ tree)⟩)
          | false =>
              rcases respellSource_cases input tree options respeller with
                ⟨failure, hfailed, hnone⟩ | ⟨source, respelled, hsource, hrespelled, hout⟩
              · refine Or.inl ⟨failure, hload.bind hfailed, ?_⟩
                rintro _ text ⟨settings', respeller', source, respelled, h, h', hsource, h'', _⟩
                cases hsettings.symm.trans h
                cases hrespeller.symm.trans h'
                exact absurd h'' (hnone source respelled hsource)
              · have htext : Translates input tree options respelled.text :=
                  ⟨settings, respeller, source, respelled, hsettings, hrespeller, hsource,
                    hrespelled, rfl⟩
                rcases giveOut_cases input tree options respelled.text with
                  ⟨hnone, hends⟩ | ⟨path, other, hpath, hwritten, hends⟩ | ⟨hcannot, failure, hends⟩
                · exact Or.inr (Or.inr ⟨rfl, _, htext, Or.inl ⟨hnone, hload.bind (hout _ _ hends)⟩⟩)
                · exact Or.inr (Or.inr ⟨rfl, _, htext,
                    Or.inr ⟨path, other, hpath, hwritten, hload.bind (hout _ _ hends)⟩⟩)
                · exact Or.inl ⟨failure, hload.bind (hout _ _ hends), fun _ _ _ => hcannot⟩

end Stages

section Outcome

variable {arguments : List String} {options : Options} {input : Option String}
  {tree other : FileTree}

/-- A run whose job gives a text prints it and ends with the exit code 0. -/
theorem run_of_ends_ok {out : String} (h : Invocation.ofArguments arguments = .run options)
    (hends : Ends (job (treeHost input) options) tree (.ok out) other) :
    ∃ log, (run (treeHost input) arguments).run tree = (⟨0, out, log⟩, other) := by
  obtain ⟨noted, hjob⟩ := hends []
  rw [run, h]
  dsimp only
  rw [StateT.run_bind, hjob]
  exact ⟨_, rfl⟩

/-- A run whose job fails prints nothing and ends with the exit code 1. -/
theorem run_of_ends_error {failure : Failure} (h : Invocation.ofArguments arguments = .run options)
    (hends : Ends (job (treeHost input) options) tree (.error failure) other) :
    ∃ log, (run (treeHost input) arguments).run tree = (⟨1, "", log⟩, other) := by
  obtain ⟨noted, hjob⟩ := hends []
  rw [run, h]
  dsimp only
  rw [StateT.run_bind, hjob]
  exact ⟨_, rfl⟩

end Outcome

/-- The library gives at most one text. -/
theorem Translates.unique {input : Option String} {tree : FileTree} {options : Options}
    {text other : String} (h : Translates input tree options text)
    (hother : Translates input tree options other) : text = other := by
  obtain ⟨settings, respeller, source, respelled, h₁, h₂, h₃, h₄, rfl⟩ := h
  obtain ⟨settings', respeller', source', respelled', h₁', h₂', h₃', h₄', rfl⟩ := hother
  cases h₁.symm.trans h₁'
  cases h₂.symm.trans h₂'
  cases h₃.symm.trans h₃'
  cases h₄.symm.trans h₄'
  rfl

/-- A list of the subsets is the same in all surroundings with the same files to read: neither the
standard input nor the file of a text is read, and none is written. -/
theorem run_listSubsets {m : Type → Type} [Monad m] {arguments others : List String}
    {options : Options} {source : Option String}
    (h : Invocation.ofArguments arguments = .run options)
    (hothers : Invocation.ofArguments others = .run { options with input := source })
    (hlist : options.has .listSubsets = true) (host : Host m) (readInput : m (Option String))
    (write : String → String → m (Except FileFault Unit)) :
    run ⟨{ host.files with writeText := write }, readInput⟩ others = run host arguments := by
  have hjob : job ⟨{ host.files with writeText := write }, readInput⟩
      { options with input := source } = job host options := by
    have hload : loadRespeller ⟨{ host.files with writeText := write }, readInput⟩
        { options with input := source } = loadRespeller host options := by
      rw [loadRespeller, loadRespeller]
      simp only [Respeller.load_writeText]
      rfl
    rw [job, job, hload]
    refine congrArg (loadRespeller host options >>= ·) (funext fun respeller => ?_)
    have hlist' : ({ options with input := source } : Options).has .listSubsets = true := hlist
    rw [if_pos hlist, if_pos hlist']
  rw [run, run, h, hothers]
  dsimp only
  rw [hjob]
  rfl

/-- A run that is asked for a text ends with the exit code 0 exactly when the settings, the
dictionary and the source can be read, the library respells the source, and the file for the text,
if one is named, can be written. Then the text is on the standard output and no file is changed, or
it is in that file, nothing else is changed, and nothing is on the standard output. A run that ends
with the exit code 1 prints nothing and changes nothing. A list of the subsets changes nothing, and
it depends neither on the text nor on how files are written. -/
theorem run_agrees {arguments : List String} {options : Options}
    (h : Invocation.ofArguments arguments = .run options) (input : Option String)
    (tree : FileTree) :
    let outcome := ((run (treeHost input) arguments).run tree).1
    let other := ((run (treeHost input) arguments).run tree).2
    (outcome.code = 0 ∨ outcome.code = 1) ∧
    (outcome.code = 1 → outcome.out = "" ∧ other = tree) ∧
    (options.has .listSubsets = false →
      (outcome.code = 0 ↔
        (∃ text, Translates input tree options text) ∧ CanWrite tree options) ∧
      ∀ text, outcome.code = 0 → Translates input tree options text →
        (options.value? .output = none → outcome.out = text ∧ other = tree) ∧
        ∀ path, options.value? .output = some path → outcome.out = "" ∧
          FileTree.Written tree path text other ∧ other.readText path = .ok text) ∧
    (options.has .listSubsets = true → other = tree ∧
      ∀ (m : Type → Type) [Monad m] (host : Host m) readInput write others source,
        Invocation.ofArguments others = .run { options with input := source } →
        run ⟨{ host.files with writeText := write }, readInput⟩ others = run host arguments) := by
  have hlists := fun (hlist : options.has .listSubsets = true) (m : Type → Type) [Monad m]
    (host : Host m) readInput write others source
    (hothers : Invocation.ofArguments others = .run { options with input := source }) =>
      run_listSubsets h hothers hlist host readInput write
  rcases job_cases input tree options with ⟨failure, hends, hrefused⟩ | ⟨hlist, out, hends⟩ |
    ⟨hlist, text, htext, ⟨hnone, hends⟩ | ⟨path, other, hpath, hwritten, hends⟩⟩
  · obtain ⟨log, hrun⟩ := run_of_ends_error h hends
    rw [hrun]
    refine ⟨Or.inr rfl, fun _ => ⟨rfl, rfl⟩, fun hlist => ⟨?_, fun _ hzero => by cases hzero⟩,
      fun hlist => ⟨rfl, hlists hlist⟩⟩
    refine iff_of_false (fun hzero => by cases hzero) ?_
    rintro ⟨⟨text, htext⟩, hwrite⟩
    exact hrefused hlist text htext hwrite
  · obtain ⟨log, hrun⟩ := run_of_ends_ok h hends
    rw [hrun]
    exact ⟨Or.inl rfl, fun hone => absurd hone Nat.zero_ne_one,
      fun hnot => absurd (hnot.symm.trans hlist) Bool.false_ne_true,
      fun hlist => ⟨rfl, hlists hlist⟩⟩
  · obtain ⟨log, hrun⟩ := run_of_ends_ok h hends
    rw [hrun]
    refine ⟨Or.inl rfl, fun hone => absurd hone Nat.zero_ne_one, fun _ => ⟨?_, ?_⟩,
      fun hlist' => absurd (hlist.symm.trans hlist') Bool.false_ne_true⟩
    · refine iff_of_true rfl ⟨⟨text, htext⟩, fun path hpath => ?_⟩
      cases hnone.symm.trans hpath
    · intro text' _ htext'
      cases htext.unique htext'
      refine ⟨fun _ => ⟨rfl, rfl⟩, fun path hpath => ?_⟩
      cases hnone.symm.trans hpath
  · obtain ⟨log, hrun⟩ := run_of_ends_ok h hends
    rw [hrun]
    refine ⟨Or.inl rfl, fun hone => absurd hone Nat.zero_ne_one, fun _ => ⟨?_, ?_⟩,
      fun hlist' => absurd (hlist.symm.trans hlist') Bool.false_ne_true⟩
    · refine iff_of_true rfl ⟨⟨text, htext⟩, fun path' hpath' => ?_⟩
      cases hpath.symm.trans hpath'
      obtain ⟨place, hplace, _⟩ := hwritten
      exact ⟨place, hplace⟩
    · intro text' _ htext'
      cases htext.unique htext'
      refine ⟨fun hnone => ?_, fun path' hpath' => ?_⟩
      · cases hpath.symm.trans hnone
      · cases hpath.symm.trans hpath'
        exact ⟨rfl, hwritten, hwritten.readText⟩

/-- The file for the text may be the one it comes from. The folder and both subsets are named here,
and the settings are the default ones. -/
theorem run_agrees_in_place :
    let tree := (((FileTree.empty []).add "in.js" (.file "if(a)b".toUTF8.data.toList)).add
      "sets/plain.json" (.file "\x7b\"if\":\"if\"\x7d".toUTF8.data.toList)).add
      "sets/short.json" (.file "\x7b\"if\":\"when\"\x7d".toUTF8.data.toList)
    let arguments := ["-l", "sets", "-fplain", "--to=short", "-o", "in.js", "in.js"]
    let options : Options := ⟨some "in.js", [(.output, "in.js"), (.destination, "short"),
      (.source, "plain"), (.folder, "sets")], []⟩
    Invocation.ofArguments arguments = .run options ∧
      ∃ log other, (run (treeHost none) arguments).run tree = (⟨0, "", log⟩, other) ∧
        Translates none tree options "when(a)b" ∧
        FileTree.Written tree "in.js" "when(a)b" other := by
  intro tree arguments options
  have harguments : Invocation.ofArguments arguments = .run options := by decide +kernel
  have hcode : ((run (treeHost none) arguments).run tree).1.code = 0 := by decide +kernel
  have hfile : ((run (treeHost none) arguments).run tree).2.readText "in.js" = .ok "when(a)b" := by
    decide +kernel
  have hagrees := run_agrees harguments none tree
  cases hrun : (run (treeHost none) arguments).run tree with
  | mk outcome other =>
      rw [hrun] at hcode hfile hagrees
      obtain ⟨_, _, htexts, _⟩ := hagrees
      obtain ⟨hiff, hgives⟩ := htexts rfl
      obtain ⟨⟨text, htext⟩, _⟩ := hiff.mp hcode
      obtain ⟨hout, hwritten, hread⟩ := (hgives text hcode htext).2 "in.js" rfl
      cases hfile.symm.trans hread
      obtain ⟨code, out, log⟩ := outcome
      cases hcode
      cases hout
      exact ⟨harguments, log, other, rfl, htext, hwritten⟩

end Respell.CommandLine
