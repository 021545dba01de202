import PushButton.Proofs.Cli.Commands

/-!
# A session of processes is one editor

Processes that edit the workflow of one desk, one after the other, and whatever happens to other
files between them: the desk keeps the workflow of one editor in memory on which the same operations
are made in the same order. A process starts by making the directories of its storage and of its
log, and writes the log as it goes; neither touches the file of the desk.
-/

namespace PushButton

namespace Settings

variable {fs fs' made : Files} {env : Environment} {settings : Settings}

/-- When the directory of the storage is made, that of the log comes next. -/
theorem makeDirectories_of_storage
    (h : fs.makeDirectories settings.storageFile.parent = (.ok (), made)) :
    settings.makeDirectories fs =
      ((made.makeDirectories settings.logFile.parent).1.mapError (·.failure),
        (made.makeDirectories settings.logFile.parent).2) := by
  rw [makeDirectories, h]

/-- Making the directories of settings makes directories at most. -/
theorem grows_makeDirectories (settings : Settings) (fs : Files) :
    fs.Grows (settings.makeDirectories fs).2 := by
  cases hstorage : fs.makeDirectories settings.storageFile.parent with
  | mk result made =>
    have hgrows := (Files.makeDirectoriesUpTo_growsAlong hstorage).toGrows
    cases result with
    | error e =>
      rw [makeDirectories, hstorage]
      exact hgrows
    | ok _ =>
      rw [makeDirectories_of_storage hstorage]
      exact hgrows.trans (Files.makeDirectoriesUpTo_growsAlong rfl).toGrows

/-- Valid settings are prepared when their directories are made. -/
theorem prepare_of_read (h : read fs env = .ok settings) :
    prepare fs env =
      ((settings.makeDirectories fs).1.map fun () => settings,
        (settings.makeDirectories fs).2) := by
  rw [prepare, h]

/-- Preparing settings makes directories at most. -/
theorem grows_prepare (fs : Files) (env : Environment) : fs.Grows (prepare fs env).2 := by
  cases hread : read fs env with
  | error f =>
    rw [prepare, hread]
    exact .refl fs
  | ok settings =>
    rw [prepare_of_read hread]
    exact settings.grows_makeDirectories fs

/-- Settings that are prepared are valid, and their directories are made. -/
theorem of_prepare_eq_ok (h : prepare fs env = (.ok settings, fs')) :
    read fs env = .ok settings ∧ settings.makeDirectories fs = (.ok (), fs') := by
  cases hread : read fs env with
  | error f =>
    rw [prepare, hread] at h
    cases h
  | ok settings' =>
    rw [prepare_of_read hread] at h
    cases hmakes : settings'.makeDirectories fs with
    | mk result made =>
      rw [hmakes] at h
      cases result with
      | error f => cases h
      | ok _ =>
        cases h
        exact ⟨rfl, hmakes⟩

/-- Settings that are prepared have made the directory of the storage and then that of the log. -/
theorem exists_of_prepare_eq_ok (h : prepare fs env = (.ok settings, fs')) :
    ∃ made, fs.makeDirectories settings.storageFile.parent = (.ok (), made) ∧
      made.makeDirectories settings.logFile.parent = (.ok (), fs') := by
  obtain ⟨-, hmakes⟩ := of_prepare_eq_ok h
  cases hstorage : fs.makeDirectories settings.storageFile.parent with
  | mk result made =>
    cases result with
    | error e =>
      rw [makeDirectories, hstorage] at hmakes
      cases hmakes
    | ok _ =>
      rw [makeDirectories_of_storage hstorage] at hmakes
      obtain ⟨hresult, hmade⟩ := Prod.mk.inj hmakes
      exact ⟨made, rfl, Prod.ext (of_mapError_eq_ok hresult) hmade⟩

end Settings

namespace Cli

/-- A desk holds the workflow that is found at it: once the directories around its file are made,
the file can be written, this workflow is found under the key, and the items of the desk under the
other keys. -/
def Desk.Holds (d : Desk) (fs : Files) (found : Option Workflow) : Prop :=
  ∃ made, fs.makeDirectories d.path.parent = (.ok (), made) ∧
    made.isClosed d.path.parent = false ∧ made.hasDirectory d.path = false ∧
    (⟨.file d.path, made⟩ : Shelf).loadWorkflow d.key = .ok found ∧
    ∃ items, (⟨.file d.path, made⟩ : Shelf).items = .ok items ∧
      items.filter (·.1 ≠ d.key) = d.others

/-- Settings, with their directories made, belong to a desk: they name its file, its key and its
label, the file can be written, and the log goes elsewhere. -/
structure Desk.Fits (d : Desk) (settings : Settings) (fs : Files) : Prop where
  /-- The storage is the file of the desk. -/
  path : settings.storageFile = d.path
  /-- The workflow is stored under the key of the desk. -/
  key : settings.configKey = d.key
  /-- A new workflow has the label of the desk. -/
  label : settings.label = d.label
  /-- No directory is in the way. -/
  free : fs.hasDirectory d.path = false
  /-- A log file is at another location. -/
  log : settings.logToFile = true → fs.locate settings.logFile ≠ fs.locate d.path

instance (d : Desk) (settings : Settings) (fs : Files) : Decidable (d.Fits settings fs) :=
  decidable_of_iff (settings.storageFile = d.path ∧ settings.configKey = d.key ∧
      settings.label = d.label ∧ fs.hasDirectory d.path = false ∧
      (settings.logToFile = true → fs.locate settings.logFile ≠ fs.locate d.path))
    ⟨fun ⟨hpath, hkey, hlabel, hfree, hlog⟩ => ⟨hpath, hkey, hlabel, hfree, hlog⟩,
      fun ⟨hpath, hkey, hlabel, hfree, hlog⟩ => ⟨hpath, hkey, hlabel, hfree, hlog⟩⟩

/-- The command that the arguments of a process describe, where they describe one. -/
def command? (fs : Files) (args : List Text) : Option Command :=
  match Invocation.read args with
  | .ok (.command i) =>
    (Arguments.read fs i.command i.arguments).toOption.map (Command.ofArguments i.command.name)
  | _ => none

/-- The operation that a process stands for, where it stands for one. -/
def operation? (m : Machine) (around : Surroundings) (args : List Text) : Option Operation :=
  match Settings.prepare m.files around.environment with
  | (.ok _, fs) => (command? fs args).bind (·.operation? fs)
  | (.error _, _) => none

/-- A process may take part in editing at a desk: if its settings are valid they belong to the desk,
and if its arguments describe a command, the command edits. -/
def Desk.Admits (d : Desk) (m : Machine) (around : Surroundings) (args : List Text) : Prop :=
  ∀ settings, Settings.read m.files around.environment = .ok settings →
    d.Fits settings (settings.makeDirectories m.files).2 ∧
      ∀ c ∈ command? (settings.makeDirectories m.files).2 args, c.edits = true

instance (d : Desk) (m : Machine) (around : Surroundings) (args : List Text) :
    Decidable (d.Admits m around args) :=
  match hread : Settings.read m.files around.environment with
  | .error f => isTrue fun _ h => by cases hread.symm.trans h
  | .ok settings =>
    decidable_of_iff (d.Fits settings (settings.makeDirectories m.files).2 ∧
        ∀ c ∈ command? (settings.makeDirectories m.files).2 args, c.edits = true)
      ⟨fun h _ hsame => by cases hread.symm.trans hsame; exact h, fun h => h _ hread⟩

/-- Operations that are made at a desk by processes, one after the other, from one machine to
another. -/
inductive Session (d : Desk) (m : Machine) : List Operation → Machine → Prop
  /-- No process has run. -/
  | start : Session d m [] m
  /-- Something happens to other files. -/
  | aside {ops : List Operation} {m' : Machine} {fs : Files} : Session d m ops m' →
      (∀ found, d.Holds m'.files found → d.Holds fs found) →
      Session d m ops { m' with files := fs }
  /-- A process runs. -/
  | process {ops : List Operation} {m' : Machine} {around : Surroundings} {args : List Text} :
      Session d m ops m' → d.Admits m' around args →
      Session d m (ops ++ (operation? m' around args).toList) (run m' around args).machine

/-! ## One process -/

/-- The file of a desk, once its directory is made, keeps the workflow of an editor, and as many
action ids were given on the machine as by the editor. -/
structure Machine.Shows (d : Desk) (e : Editor) (m : Machine) : Prop where
  /-- The items of the file keep the workflow. -/
  items : ∃ made items, m.files.makeDirectories d.path.parent = (.ok (), made) ∧
    Storage.InPlace made d.path items ∧ e.IsIn d items
  /-- As many action ids were given. -/
  ids : m.actionIds = e.ids

variable {d : Desk} {e : Editor} {m m' : Machine}

/-- A machine shows an editor that is opened for what the desk holds. -/
theorem Machine.shows_opened {found : Option Workflow} (h : d.Holds m.files found) :
    m.Shows d (.opened d found m.actionIds) := by
  obtain ⟨made, hmade, hopen, hfree, hfound, items, hitems, hothers⟩ := h
  have hdirectory := (Files.makeDirectoriesUpTo_eq_ok hmade).1
  exact ⟨⟨made, items, hmade, ⟨hdirectory, hopen, hfree, hitems⟩,
    Editor.isIn_opened hitems hothers hfound m.actionIds⟩, rfl⟩

/-- A desk holds the workflow of the editor, where it is kept. -/
theorem Machine.Shows.holds (h : m.Shows d e) : d.Holds m.files e.kept? := by
  obtain ⟨made, items, hmade, hplace, hin⟩ := h.items
  exact ⟨made, hmade, hplace.opened, hplace.free, hin.loadWorkflow hplace.items, items,
    hplace.items, hin.others⟩

/-- What happens to other files leaves the editor. -/
theorem Machine.Shows.aside (h : m.Shows d e) {fs : Files}
    (haside : ∀ found, d.Holds m.files found → d.Holds fs found) :
    Machine.Shows d e { m with files := fs } := by
  obtain ⟨made, hmade, hopen, hfree, hfound, items, hitems, hothers⟩ := haside _ h.holds
  obtain ⟨_, _, _, _, hin⟩ := h.items
  have hdirectory := (Files.makeDirectoriesUpTo_eq_ok hmade).1
  exact ⟨⟨made, items, hmade, ⟨hdirectory, hopen, hfree, hitems⟩,
    hothers, Editor.text_of_loadWorkflow hitems hfound, hin.new, hin.made⟩, h.ids⟩

/-- The file of a desk is in place when the directories of settings are made that belong to the
desk. -/
theorem Machine.Shows.inPlace (h : m.Shows d e) {settings : Settings}
    (hfits : d.Fits settings (settings.makeDirectories m.files).2) :
    ∃ items, Storage.InPlace (settings.makeDirectories m.files).2 d.path items ∧
      e.IsIn d items := by
  obtain ⟨made, items, hmade, hplace, hin⟩ := h.items
  have hfree := hfits.free
  rw [← hfits.path] at hmade
  rw [Settings.makeDirectories_of_storage hmade] at hfree ⊢
  -- the directory of the log is made when that of the storage is there already
  have hgrows : made.Grows (made.makeDirectories settings.logFile.parent).2 :=
    (Files.makeDirectoriesUpTo_growsAlong rfl).toGrows
  exact ⟨items, hplace.of_entry hgrows.keepsDirectories (hgrows.entry?_eq hplace.directory hfree),
    hin⟩

/-- A process at a desk starts with the workflow of the editor. -/
theorem Machine.Shows.prepared (h : m.Shows d e) {around : Surroundings} {settings : Settings}
    {fs : Files} (hprepare : Settings.prepare m.files around.environment = (.ok settings, fs))
    (hfits : d.Fits settings fs) (level : Option Text) :
    (Shell.start m around settings fs level).Shows d e := by
  obtain ⟨-, hmakes⟩ := Settings.of_prepare_eq_ok hprepare
  obtain ⟨made, -, hlog⟩ := Settings.exists_of_prepare_eq_ok hprepare
  obtain ⟨items, hplace, hin⟩ := h.inPlace (by rwa [hmakes])
  rw [hmakes] at hplace
  refine ⟨hfits.path, hfits.key, hfits.label, fun hlogs => ?_, ⟨items, hplace, hin⟩, h.ids⟩
  obtain ⟨l, hl⟩ := Files.exists_locate_of_parent (Files.makeDirectoriesUpTo_eq_ok hlog).1
  obtain ⟨k, hk⟩ := Files.exists_locate_of_parent hplace.directory
  refine ⟨l, k, hl, hk, fun hsame => hfits.log hlogs ?_⟩
  rw [hl, hk, hsame]

/-- A process at a desk whose directories cannot be made leaves the workflow of the editor. -/
theorem Machine.Shows.unprepared (h : m.Shows d e) {around : Surroundings} {f : Failure}
    {fs : Files} (hprepare : Settings.prepare m.files around.environment = (.error f, fs))
    {args : List Text} (hadmits : d.Admits m around args) :
    Machine.Shows d e { m with files := fs } := by
  cases hread : Settings.read m.files around.environment with
  | error f' =>
    rw [Settings.prepare, hread] at hprepare
    cases hprepare
    exact h
  | ok settings =>
    obtain ⟨items, hplace, hin⟩ := h.inPlace (hadmits settings hread).1
    rw [Settings.prepare_of_read hread] at hprepare
    obtain ⟨-, rfl⟩ := Prod.mk.inj hprepare
    exact ⟨⟨_, items, Files.makeDirectories_of_hasDirectory hplace.directory, hplace, hin⟩, h.ids⟩

/-- The machine that a process leaves is that of its job. -/
theorem machine_carryOut (job : Job Unit) (s : Shell) :
    (carryOut job s).machine = (job.exec s).2.machine := rfl

/-- A process leaves on the machine what its job leaves at the desk. -/
theorem Shell.Shows.carryOut {job : Job Unit} {s : Shell} (h : (job.exec s).2.Shows d e) :
    (carryOut job s).machine.Shows d e := by
  obtain ⟨items, hplace, hin⟩ := h.items
  rw [machine_carryOut]
  exact ⟨⟨_, items, Files.makeDirectories_of_hasDirectory hplace.directory, hplace, hin⟩, h.ids⟩

/-- Arguments that describe no command stand for no operation. -/
theorem operation?_eq_none {around : Surroundings} {args : List Text}
    (h : ∀ fs, command? fs args = none) : operation? m around args = none := by
  unfold operation?
  split
  · rw [h]
    rfl
  · rfl

/-- **A process is an operation.** When a process that a desk admits has run, however it has ended,
the machine shows the editor after the operation that the process stands for. -/
theorem Machine.Shows.process (h : m.Shows d e) {around : Surroundings} {args : List Text}
    (hadmits : d.Admits m around args) :
    (run m around args).machine.Shows d (e.applyAll d (operation? m around args).toList) := by
  cases hread : Invocation.read args with
  | error f =>
    rw [run, hread, operation?_eq_none fun fs => by rw [command?, hread]]
    exact h
  | ok asked =>
    cases asked with
    | help asked =>
      rw [run, hread, operation?_eq_none fun fs => by rw [command?, hread]]
      exact h
    | command i =>
      rw [run, hread]
      dsimp only
      rcases hprepare : Settings.prepare m.files around.environment with ⟨f | settings, fs⟩
      · rw [operation?, hprepare]
        exact h.unprepared hprepare hadmits
      · obtain ⟨hvalid, hmakes⟩ := Settings.of_prepare_eq_ok hprepare
        obtain ⟨hfits, hedits⟩ := hadmits settings hvalid
        rw [hmakes] at hfits hedits
        have hstart := h.prepared hprepare hfits i.level
        refine Shell.Shows.carryOut ?_
        rw [operation?, hprepare, Invocation.job]
        dsimp only
        rw [command?, hread] at hedits ⊢
        dsimp only at hedits ⊢
        cases hargs : Arguments.read fs i.command i.arguments with
        | error f => exact hstart
        | ok a =>
          rw [hargs] at hedits
          exact hstart.command (hedits _ rfl)

/-- After a session the machine shows the editor after the operations of the session. The induction
is on the session. -/
theorem Session.shows {ops : List Operation} (hsession : Session d m ops m') (h : m.Shows d e) :
    m'.Shows d (e.applyAll d ops) := by
  induction hsession with
  | start => exact h
  | aside _ haside ih => exact ih.aside haside
  | process _ hadmits ih =>
    rw [Editor.applyAll, List.foldl_append]
    exact ih.process hadmits

/-- **A session is one editor.** Processes that edit at a desk, one after the other and however each
of them ends, leave there the workflow of one editor on which the same operations were made, with
the same ids. Nothing is stored as long as no operation was made since the workflow was new, and
then the workflow of the editor is the new one. The items under other keys stay. -/
theorem Session.is_one_editor {ops : List Operation} {found : Option Workflow}
    (hsession : Session d m ops m') (hfound : d.Holds m.files found) :
    let e := (Editor.opened d found m.actionIds).applyAll d ops
    d.Holds m'.files e.kept? ∧ (e.isKept = false → e.workflow = .new d.label) ∧
      m'.actionIds = e.ids := by
  have h := hsession.shows (Machine.shows_opened hfound)
  obtain ⟨_, _, _, _, hin⟩ := h.items
  exact ⟨h.holds, hin.new, h.ids⟩

/-- Three processes on an empty machine: the second one fails. -/
theorem Session.is_one_editor_of_three :
    let d : Desk := ⟨⟨true, ["home", ".button_workflow", "local_storage.json"]⟩, "workflowConfig",
      "Click Me!", []⟩
    let m : Machine := { files := ⟨["home"], [(["home"], .directory)], []⟩ }
    let ops : List Operation := [.relabel "Go", .remove "a9", .add "showText" ["text=a=b"]]
    ∃ m', Session d m ops m' ∧ d.Holds m.files none ∧
      d.Holds m'.files (some ⟨"Go", [⟨Action.idOf 1, .showText, some [("text", "a=b")]⟩]⟩) ∧
      m'.actionIds = 1 := by
  intro d m ops
  let around : Surroundings := { environment := [] }
  let m₁ := (run m around ["label", "Go"]).machine
  let m₂ := (run m₁ around ["remove", "a9"]).machine
  let m₃ := (run m₂ around ["add", "showText", "-p", "text=a=b"]).machine
  have hstart : d.Holds m.files none :=
    ⟨⟨["home"], [(["home", ".button_workflow"], .directory), (["home"], .directory)], []⟩,
      rfl, rfl, rfl, rfl, [], rfl, rfl⟩
  have hstep {ops : List Operation} {m' : Machine} {args : List Text} {op : Operation}
      (h : Session d m ops m') (hop : operation? m' around args = some op)
      (hadmits : d.Admits m' around args) :
      Session d m (ops ++ [op]) (run m' around args).machine := by
    have h' := h.process hadmits
    rwa [hop] at h'
  have h₁ : Session d m [.relabel "Go"] m₁ := hstep .start (by decide +kernel) (by decide +kernel)
  have h₂ : Session d m [.relabel "Go", .remove "a9"] m₂ :=
    hstep h₁ (by decide +kernel) (by decide +kernel)
  have h₃ : Session d m ops m₃ := hstep h₂ (by decide +kernel) (by decide +kernel)
  obtain ⟨hholds, -, hids⟩ := h₃.is_one_editor hstart
  refine ⟨m₃, h₃, hstart, ?_, ?_⟩
  · have hkept : ((Editor.opened d none m.actionIds).applyAll d ops).kept? =
        some ⟨"Go", [⟨Action.idOf 1, .showText, some [("text", "a=b")]⟩]⟩ := by decide +kernel
    rwa [hkept] at hholds
  · rw [hids]
    decide +kernel

/-- What a desk holds is one thing. -/
theorem Desk.Holds.unique {fs : Files} {found found' : Option Workflow} (h : d.Holds fs found)
    (h' : d.Holds fs found') : found = found' := by
  obtain ⟨made, hmade, -, -, hfound, -⟩ := h
  obtain ⟨made', hmade', -, -, hfound', -⟩ := h'
  obtain rfl := congrArg Prod.snd (hmade.symm.trans hmade')
  exact Except.ok.inj (hfound.symm.trans hfound')

/-- Not every process that edits leaves the workflow that it makes. Where half of a surrogate pair
stands under another key of the file, nothing can be stored. -/
theorem not_every_process_stores :
    ¬ ∀ (d : Desk) (m : Machine) (around : Surroundings) (t : Text) (found : Option Workflow),
      d.Holds m.files found → d.Admits m around ["label", t] →
        d.Holds (run m around ["label", t]).machine.files
          (some ((found.getD (.new d.label)).relabel t)) := by
  intro h
  let path : Path := ⟨true, ["home", ".button_workflow", "local_storage.json"]⟩
  let d : Desk := ⟨path, "workflowConfig", "Click Me!", [("x", [.lone 0])]⟩
  let bytes : Bytes := [123, 34, 120, 34, 58, 32, 34, 92, 117, 100, 56, 48, 48, 34, 125]
  let m : Machine :=
    { files := ⟨["home"], [(["home"], .directory), (["home", ".button_workflow"], .directory),
        (["home", ".button_workflow", "local_storage.json"], .file bytes)], []⟩ }
  let around : Surroundings := { environment := [] }
  have hstart : d.Holds m.files none :=
    ⟨m.files, rfl, rfl, by decide +kernel, by decide +kernel, [("x", [.lone 0])],
      by decide +kernel, by decide +kernel⟩
  have hadmits : d.Admits m around ["label", "Go"] := by decide +kernel
  have hends := ((Machine.shows_opened hstart).process hadmits).holds
  have hkept : ((Editor.opened d none m.actionIds).applyAll d
      (operation? m around ["label", "Go"]).toList).kept? = none := by decide +kernel
  rw [hkept] at hends
  cases hends.unique (h d m around "Go" none hstart hadmits)

end Cli

end PushButton
