import PushButton.Proofs.Cli.Pressing
import PushButton.Proofs.Run.Recording

/-!
# The log of a process

A process with a log file writes every record to it that passes the thresholds, in the order in
which the records are made and each in one line. Nothing else that it does changes the file, where
the storage and the file that a command is told to write are other files.
-/

namespace PushButton

namespace Files

variable {fs fs' : Files} {p : Path} {home l : Location}

/-- A path without pairs of dots leads to the location of its names, if it leads anywhere. -/
theorem ne_of_locate_resolved {k : Location} (hk : fs.locate (p.resolved ⟨true, home⟩) = .ok k)
    (hl : ¬ l <+: (p.resolved ⟨true, home⟩).names) : k ≠ l := by
  have hplace : k = (p.resolved ⟨true, home⟩).names :=
    eq_append_of_walk (Path.notMem_collapse _) hk
  rintro rfl
  exact hl (hplace ▸ List.prefix_rfl)

/-- The directories around a path without pairs of dots are made along its names. -/
theorem spares_makeDirectories
    {result : Except FileError Unit}
    (hmade : fs.makeDirectories (p.resolved ⟨true, home⟩).parent = (result, fs'))
    (hl : ¬ l <+: (p.resolved ⟨true, home⟩).names) : fs.Spares l fs' :=
  .of_growsAlong (makeDirectoriesUpTo_growsAlong hmade) rfl
    (fun hmem => Path.notMem_collapse _ (List.dropLast_subset _ hmem))
    fun hway => hl (hway.trans (List.dropLast_prefix _))

end Files

/-! ## What is made known -/

/-- The records about a new action are usual. -/
theorem Action.isUsual_makeRecords {kind : ActionKind} {given : List (Text × Json)} {r : Record}
    (hr : r ∈ makeRecords kind given) : r.IsUsual := by
  have hlogger : ("button_workflow.core.editor" : Text).IsPlain := by decide
  unfold makeRecords at hr
  dsimp only at hr
  split at hr
  · cases hr
  · obtain rfl := List.mem_singleton.mp hr
    exact ⟨.outside, hlogger, rfl⟩

/-- A workflow that is stored spares the files at other locations, and the records about it are
usual. -/
theorem Shelf.IsApart.saveWorkflow {s : Shelf} {l : Location} (h : s.IsApart l) (key : Text)
    (w : Workflow) : s.Spares l (s.saveWorkflow key w).2.1 ∧
      ∀ r ∈ (s.saveWorkflow key w).2.2, r.IsUsual := by
  have hlogger : ("button_workflow.storage.config_store" : Text).IsPlain := by decide
  have hspares := h.spares_set key (w.dump none)
  have hrecords {r : Record} (hr : r ∈ (s.setLogged key (w.dump none)).2.2) : r.IsUsual :=
    (Shelf.isAside_setLogged hr).toIsUsual
  have hshelf : (s.setLogged key (w.dump none)).2.1 = (s.set key (w.dump none)).2 := by
    unfold setLogged
    split <;> simp_all
  rw [← hshelf] at hspares
  unfold Shelf.saveWorkflow
  split
  · next shelf records hset =>
    rw [hset] at hspares hrecords
    refine ⟨hspares, fun r hr => ?_⟩
    obtain hr | hr := List.mem_append.mp hr
    · exact hrecords hr
    · obtain rfl := List.mem_singleton.mp hr
      exact ⟨.outside, hlogger, rfl⟩
  · next e shelf records hset =>
    rw [hset] at hspares hrecords
    exact ⟨hspares, fun r hr => hrecords hr⟩

namespace Cli

/-! ## Keeping the log -/

/-- The path of the file that a command is told to write, where it is told one. -/
def Command.output? : Command → Option Text
  | .save path | .press _ _ _ path => path.filter fun t => !t.isEmpty
  | _ => none

namespace Shell

/-- The log of a process is written to a file at a location, and nothing else is: the storage is
kept elsewhere, and the path of what is written besides does not pass the location. -/
structure LogsAlone (l : Location) (output : Option Text) (s : Shell) : Prop where
  /-- The log is written there. -/
  logs : s.LogsAt l
  /-- A file is there or can be made. -/
  writable : s.machine.files.writable s.settings.logFile = .ok l
  /-- The storage is kept elsewhere. -/
  storage : s.machine.files.locate s.settings.storageFile ≠ .ok l
  /-- The path does not pass it. -/
  output : ∀ path ∈ output,
    ¬ l <+: ((Path.ofText path).resolved ⟨true, s.machine.files.home⟩).names

/-- A process at work logs alone at a location, and the directory of its storage is there. -/
structure HasLog (l : Location) (output : Option Text) (s : Shell) : Prop
    extends LogsAlone l output s where
  /-- The directory of the storage is there. -/
  directory : s.machine.files.hasDirectory s.settings.storageFile.parent = true

/-- The records among what happens that pass the thresholds. -/
def kept (s : Shell) (os : List Occurrence) : List Record :=
  (os.filter (isKept s.thresholds)).filterMap Occurrence.record?

/-- From a process to a later state of it the log was kept: what happens makes usual records only,
and those that pass the thresholds have come to the end of the file of the log. -/
structure KeepsLog (l : Location) (s s' : Shell) : Prop where
  /-- The settings are the same. -/
  settings : s'.settings = s.settings
  /-- The surroundings are the same. -/
  around : s'.around = s.around
  /-- The thresholds are the same. -/
  thresholds : s'.thresholds = s.thresholds
  /-- No directory was taken away. -/
  directories : s.machine.files.KeepsDirectories s'.machine.files
  /-- The file of the log is there or can be made. -/
  writable : s'.machine.files.writable s'.settings.logFile = .ok l
  /-- What has happened, and what was written. -/
  written : ∃ os, s'.past = os.reverse ++ s.past ∧ (∀ o ∈ os, o.IsUsual) ∧
    s'.machine.files.contents l =
      s.machine.files.contents l ++ (s.kept os).flatMap (Files.recordBytes s.around.time)

variable {l : Location} {output : Option Text} {s s' s'' : Shell}

/-- A process that spares the file of its log keeps the log, where nothing has happened. -/
theorem HasLog.keepsLog (h : s.HasLog l output) (hsettings : s'.settings = s.settings)
    (haround : s'.around = s.around) (hthresholds : s'.thresholds = s.thresholds)
    (hpast : s'.past = s.past) (hspares : s.machine.files.Spares l s'.machine.files) :
    s.KeepsLog l s' := by
  refine ⟨hsettings, haround, hthresholds, hspares.toKeepsDirectories, ?_, [], ?_, nofun, ?_⟩
  · rw [hsettings]
    exact hspares.toKeepsDirectories.writable h.writable hspares.same
  · simpa using hpast
  · simp [kept, Files.contents, hspares.same]

/-- Nothing has happened. -/
theorem HasLog.refl (h : s.HasLog l output) : s.KeepsLog l s :=
  h.keepsLog rfl rfl rfl rfl (.refl l _)

/-- The log is kept twice. -/
theorem KeepsLog.trans (h : s.KeepsLog l s') (h' : s'.KeepsLog l s'') : s.KeepsLog l s'' := by
  obtain ⟨os, hpast, husual, hcontents⟩ := h.written
  obtain ⟨os', hpast', husual', hcontents'⟩ := h'.written
  refine ⟨h'.settings.trans h.settings, h'.around.trans h.around,
    h'.thresholds.trans h.thresholds, h.directories.trans h'.directories, h'.writable, os ++ os',
    ?_, ?_, ?_⟩
  · rw [hpast', hpast, List.reverse_append, List.append_assoc]
  · exact fun o ho => (List.mem_append.mp ho).elim (husual o) (husual' o)
  · have hkept : s'.kept os' = s.kept os' := by rw [kept, kept, h.thresholds]
    rw [hcontents', hcontents, hkept, h.around]
    simp [kept, List.filter_append, List.filterMap_append]

/-- The storage of a process that logs alone is apart from its log. -/
theorem HasLog.isApart (h : s.HasLog l output) : (Job.shelfOf s).IsApart l :=
  ⟨s.settings.storageFile, rfl, h.directory, h.storage⟩

/-- A process that keeps its log still has it. -/
theorem HasLog.of_keepsLog (h : s.HasLog l output) (hkeeps : s.KeepsLog l s') :
    s'.HasLog l output := by
  obtain ⟨k, hk⟩ := Files.exists_locate_of_parent h.directory
  have hstorage := h.storage
  obtain ⟨hlogs, hl⟩ := h.logs
  rw [hk] at hstorage
  refine ⟨⟨⟨?_, ?_⟩, hkeeps.writable, ?_, ?_⟩, ?_⟩
  · rwa [hkeeps.settings]
  · rw [hkeeps.settings]
    exact hkeeps.directories.locate hl
  · rwa [hkeeps.settings, hkeeps.directories.locate hk]
  · rw [hkeeps.directories.home]
    exact h.output
  · rw [hkeeps.settings]
    exact hkeeps.directories.hasDirectory h.directory

/-- A process that has a log keeps it up to a later process. -/
def MindsLog (l : Location) (output : Option Text) (s s' : Shell) : Prop :=
  s.HasLog l output → s.KeepsLog l s'

instance : Job.Frame (MindsLog l output) where
  refl _ hs := hs.refl
  trans h h' hs := (h hs).trans (h' (hs.of_keepsLog (h hs)))

end Shell

namespace Job

variable {α β : Type} {l : Location} {output : Option Text}

/-- A job keeps the log of a process that has one, however it ends. -/
def KeepsLog (l : Location) (output : Option Text) (job : Job α) : Prop :=
  job.Respects (Shell.MindsLog l output)

namespace KeepsLog

/-- A value. -/
theorem pure (x : α) : KeepsLog l output (pure x) := Respects.pure x

/-- An ending. -/
theorem throw (e : Ending) : KeepsLog l output (throw e : Job α) := Respects.throw e

/-- The process is looked at. -/
theorem get : KeepsLog l output (get : Job Shell) := Respects.get

/-- The storage is looked at. -/
theorem shelf : KeepsLog l output shelf := fun _ hs => hs.refl

/-- One job after the other. -/
theorem bind {job : Job α} {next : α → Job β} (hjob : job.KeepsLog l output)
    (hnext : ∀ x, (next x).KeepsLog l output) : (job >>= next).KeepsLog l output :=
  Respects.bind hjob hnext

/-- An early end is dealt with. -/
theorem tryCatch {job : Job α} {handle : Ending → Job α} (hjob : job.KeepsLog l output)
    (hhandle : ∀ e, (handle e).KeepsLog l output) :
    KeepsLog l output (tryCatch job handle) := Respects.tryCatch hjob hhandle

/-- A job for each item of a list. -/
theorem forM {items : List β} {act : β → Job PUnit} (hact : ∀ x, (act x).KeepsLog l output) :
    KeepsLog l output (items.forM act) := Respects.forM hact

/-- A job for each item of a list, with its values. -/
theorem mapM {items : List β} {act : β → Job α} (hact : ∀ x, (act x).KeepsLog l output) :
    KeepsLog l output (items.mapM act) := Respects.mapM hact

/-- A result. -/
theorem ofExcept (r : Except Failure α) : KeepsLog l output (ofExcept r) := Respects.ofExcept r

/-- What happens makes usual records only. -/
theorem occur {os : List Occurrence} (hos : ∀ o ∈ os, o.IsUsual) :
    KeepsLog l output (occur os) := by
  intro s hs
  have hlogs := hs.logs.1
  have hkeeps := (s.keepsDirectories_journal os).1
  have hjournal : s.journal s.machine.files os =
      s.machine.files.appendRecords s.settings.logFile s.around.time (s.kept os) := if_pos hlogs
  refine ⟨rfl, rfl, rfl, hkeeps, ?_, os, rfl, hos, ?_⟩
  · change (s.journal s.machine.files os).writable s.settings.logFile = _
    rw [hjournal, Files.writable_appendRecords hs.writable]
  · change (s.journal s.machine.files os).contents l = _
    rw [hjournal, Files.contents_appendRecords hs.writable]

/-- Usual records are made. -/
theorem records {rs : List Record} (hrs : ∀ r ∈ rs, r.IsUsual) :
    KeepsLog l output (Job.occur (rs.map .logged)) := by
  refine .occur fun o ho => ?_
  obtain ⟨r, hr, rfl⟩ := List.mem_map.mp ho
  exact Occurrence.isUsual_logged (hrs r hr)

/-- A text is printed. -/
theorem printText (t : Text) : KeepsLog l output (printText t) := by
  unfold Job.printText
  split
  · exact .throw _
  · exact .occur (by simpa using Occurrence.isUsual_of_record? rfl)

/-- A line is said. -/
theorem say (line : Text) : KeepsLog l output (say line) := .printText _

/-- A line is said, and the process ends. -/
theorem say_exit (line : Text) (code : Nat) :
    KeepsLog l output (do Job.say line; exit code : Job α) :=
  (say line).bind fun _ => .throw _

/-- The stored workflow is looked up. -/
theorem stored? (wording : Text) : KeepsLog l output (stored? wording) := by
  refine KeepsLog.shelf.bind fun shelf => KeepsLog.get.bind fun s => ?_
  split
  · exact .pure _
  · split
    · exact .say_exit _ _
    · exact .throw _

/-- The stored workflow is looked up, or it is said that there is none. -/
theorem stored (wording : Text) : KeepsLog l output (stored wording) := by
  refine (KeepsLog.stored? wording).bind fun found => ?_
  cases found with
  | none => exact .say_exit _ _
  | some w => exact .pure w

/-- A workflow is stored. -/
theorem store (w : Workflow) : KeepsLog l output (store w) := by
  intro s hs
  let out := (shelfOf s).saveWorkflow s.settings.configKey w
  let after : Shell := { s with machine := { s.machine with files := out.2.1.files } }
  obtain ⟨hspares, hrecords⟩ := hs.isApart.saveWorkflow s.settings.configKey w
  have hstored : s.KeepsLog l after := hs.keepsLog rfl rfl rfl rfl hspares.files
  have hrest : KeepsLog l output (do
      Job.occur (out.2.2.map .logged)
      Job.ofExcept (out.1.mapError StorageError.failure) : Job Unit) :=
    (records hrecords).bind fun _ => .ofExcept _
  exact hstored.trans (hrest after (hs.of_keepsLog hstored))

/-- No workflow is stored any more. -/
theorem discardStored : KeepsLog l output discardStored := by
  intro s hs
  rw [exec_discardStored]
  exact hs.keepsLog rfl rfl rfl rfl (hs.isApart.spares_remove _).files

/-- A text is written to the file of the path that the process is told to write. -/
theorem writeFile (path text : Text) : KeepsLog l (some path) (writeFile path text) := by
  intro s hs
  have hpasses := hs.output path rfl
  simp only [Job.writeFile, files, putFiles, exec_bind, exec_get, exec_pure, exec_ofExcept,
    exec_modify]
  rcases hmade : s.machine.files.makeDirectories
    ((Path.ofText path).resolved ⟨true, s.machine.files.home⟩).parent with ⟨result, made⟩
  have hgrows := Files.spares_makeDirectories hmade hpasses
  cases result with
  | error e => exact hs.keepsLog rfl rfl rfl rfl hgrows
  | ok _ =>
    dsimp only [Except.mapError]
    cases hwrite : made.write ((Path.ofText path).resolved ⟨true, s.machine.files.home⟩)
        ((Utf8.encode text).toOption.getD []) with
    | error e => exact hs.keepsLog rfl rfl rfl rfl hgrows
    | ok written =>
      have hspares := hgrows.trans (Files.spares_write hwrite fun k hk =>
        Files.ne_of_locate_resolved hk hpasses)
      cases Utf8.encode text with
      | error e => exact hs.keepsLog rfl rfl rfl rfl hspares
      | ok bytes => exact hs.keepsLog rfl rfl rfl rfl hspares

/-- The workflow in a file is looked up. -/
theorem load (path : Text) : KeepsLog l output (load path) := by
  have hfiles : KeepsLog l output Job.files := fun _ hs => hs.refl
  exact hfiles.bind fun fs => .ofExcept _

/-- A file is checked. -/
theorem check (path : Text) : KeepsLog l output (check path) := by
  refine ((load path).bind fun w => (say _).bind fun _ => .pure true).tryCatch fun e => ?_
  cases e with
  | failed f =>
    dsimp only
    split
    · exact (say _).bind fun _ => .pure false
    · exact .throw _
  | exit | usage => exact .throw _

/-- The stored workflow is taken for editing, or a new one. -/
theorem edited : KeepsLog l output edited :=
  (stored? _).bind fun _ => KeepsLog.get.bind fun _ => .pure _

/-- A workflow is stored, and a line is said about it. -/
theorem store_say (w : Workflow) (line : Text) :
    KeepsLog l output (do Job.store w; Job.say line) := (store w).bind fun _ => say line

/-- An action is made. -/
theorem newAction (kind : ActionKind) (params : List (Text × Json)) :
    KeepsLog l output (newAction kind params) := by
  have hnumbered : KeepsLog l output (modify fun s =>
      { s with machine := { s.machine with actionIds := s.machine.actionIds + 1 } } : Job PUnit) :=
    fun _ hs => hs.keepsLog rfl rfl rfl rfl (.refl l _)
  refine (records fun r hr => Action.isUsual_makeRecords hr).bind fun _ => ?_
  exact hnumbered.bind fun _ => KeepsLog.get.bind fun _ => .pure _

/-- An action is moved. -/
theorem move (index target : Int) (direction : Text) (moved : Workflow → Option Workflow) :
    KeepsLog l output (move index target direction moved) := by
  refine edited.bind fun w => ?_
  split
  · exact .say _
  · exact .store_say _ _

/-! ### Presses -/

/-- A process is put into another state, which keeps the log, and then does something. -/
theorem set_bind {s after : Shell} {rest : PUnit → Job α} (hs : s.HasLog l output)
    (hafter : s.KeepsLog l after) (hrest : (rest ⟨⟩).KeepsLog l output) :
    s.KeepsLog l ((set after >>= rest : Job α).exec s).2 :=
  hafter.trans (hrest after (hs.of_keepsLog hafter))

/-- Presses that make usual records only, and spare the file. -/
theorem pressWith {σ : Type} {host : σ} {pacing : Option Int} {act : Act σ Unit}
    (husual : Act.Respects World.KeepsUsual act)
    (hspares : Act.Respects (World.SparesFile l) act) :
    KeepsLog l output (pressWith host pacing act) := by
  intro s hs
  have hpast := husual (pressWorld host pacing s) nofun
  have hshelf := hspares (pressWorld host pacing s) hs.isApart
  have hlogger : ("button_workflow.cli" : Text).IsPlain := by decide
  cases hexec : act.exec (pressWorld host pacing s) with
  | mk result w =>
    rw [hexec] at hpast hshelf
    have hact : (act.run).run (pressWorld host pacing s) = (result, w) := hexec
    unfold Job.pressWith
    rw [exec_bind, exec_get]
    dsimp only
    rw [hact]
    refine set_bind hs (hs.keepsLog rfl rfl rfl rfl hshelf.files) ?_
    refine (KeepsLog.occur fun o ho => hpast o (List.mem_reverse.mp ho)).bind fun _ => ?_
    cases result with
    | ok _ => exact .pure _
    | error f =>
      dsimp only
      split
      · refine (KeepsLog.occur ?_).bind fun _ => .throw _
        simpa using Occurrence.isUsual_logged ⟨.outside, hlogger, rfl⟩
      · exact .throw _

/-- The surface is shown, and its state perhaps written to a file. -/
theorem present (w : Workflow) (path : Option Text) (surface : SurfaceState) :
    KeepsLog l (path.filter fun t => !t.isEmpty) (present w path surface) := by
  refine (ofExcept _).bind fun contents => (printText _).bind fun _ => ?_
  generalize path.filter (fun t => !t.isEmpty) = path
  cases path with
  | none => exact .pure _
  | some path => exact (writeFile path _).bind fun shown => .say _

/-- The button is pressed. -/
theorem press (host : Option HostKind) (pacing : Option Int) (times : Nat) (path : Option Text) :
    KeepsLog l (path.filter fun t => !t.isEmpty) (press host pacing times path) := by
  refine (stored _).bind fun w => KeepsLog.get.bind fun s => ?_
  dsimp only
  cases host.getD s.settings.host with
  | terminal =>
    exact (pressWith (Press.keepsUsual_onTerminal w times)
      (Press.sparesFile_onTerminal w times l)).bind fun surface => present w path surface
  | browser =>
    exact (pressWith (Press.keepsUsual_inBrowser w times)
      (Press.sparesFile_inBrowser w times l)).bind fun surface => present w path surface

end KeepsLog

end Job

/-- **Every command keeps the log.** -/
theorem Command.keepsLog (c : Command) (l : Location) : c.job.KeepsLog l c.output? := by
  cases c with
  | config => exact Job.KeepsLog.get.bind fun s => .say _
  | types => exact .forM fun kind => .say _
  | «show» =>
    refine (Job.KeepsLog.stored _).bind fun w => ?_
    split
    · exact .say _
    · exact (Job.KeepsLog.ofExcept _).bind fun table => .printText _
  | label t => exact Job.KeepsLog.edited.bind fun w => .store_say _ _
  | add kind params =>
    refine Job.KeepsLog.edited.bind fun w => ?_
    split
    · exact .throw _
    · split
      · exact .say_exit _ _
      · exact (Job.KeepsLog.newAction _ _).bind fun a => .store_say _ _
  | remove id =>
    refine Job.KeepsLog.edited.bind fun w => ?_
    split
    · exact .say_exit _ _
    · exact .store_say _ _
  | moveUp index => exact .move _ _ _ _
  | moveDown index => exact .move _ _ _ _
  | clear all =>
    cases all with
    | true => exact Job.KeepsLog.discardStored.bind fun _ => .say _
    | false => exact Job.KeepsLog.edited.bind fun w => .store_say _ _
  | load path =>
    refine ((Job.KeepsLog.load path).tryCatch fun e => ?_).bind fun w => .store_say _ _
    cases e with
    | failed f =>
      dsimp only
      split
      · exact .say_exit _ _
      · exact .throw _
    | exit | usage => exact .throw _
  | save path =>
    refine (Job.KeepsLog.stored _).bind fun w => ?_
    change Job.KeepsLog l (path.filter fun t => !t.isEmpty) _
    generalize path.filter (fun t => !t.isEmpty) = path
    cases path with
    | none => exact .say _
    | some path => exact (Job.KeepsLog.writeFile path _).bind fun shown => .say _
  | validate paths =>
    exact (Job.KeepsLog.mapM fun path => .check path).bind fun verdicts => .throw _
  | press host pacing times path => exact .press host pacing times path
  | help name => exact .say _

/-! ## The log of a whole process -/

/-- The records that a process has made, in order. -/
def Shell.records (s : Shell) : List Record := s.past.reverse.filterMap Occurrence.record?

section Begun

variable {m : Machine} {around : Surroundings} {args : List Text} {s : Shell} {c : Command}
  {l : Location} {output : Option Text}

/-- At the beginning of a command the directory of the storage is there. -/
theorem Shell.LogsAlone.hasLog (h : s.LogsAlone l output)
    (hbegun : begun? m around args = some (s, c)) : s.HasLog l output := by
  refine ⟨h, ?_⟩
  unfold begun? at hbegun
  split at hbegun
  · next i settings fs hread hprepare =>
    obtain ⟨a, -, hpair⟩ := Option.map_eq_some_iff.mp hbegun
    obtain ⟨rfl, -⟩ := Prod.mk.inj hpair
    obtain ⟨made, hmade, hlog⟩ := Settings.exists_of_prepare_eq_ok hprepare
    have hkeeps := (Files.makeDirectoriesUpTo_eq_ok hlog).2
    exact hkeeps.hasDirectory (Files.makeDirectoriesUpTo_eq_ok hmade).1
  · cases hbegun

/-- A process writes the records that are at least as grave as its threshold. -/
theorem lets_of_begun? (hbegun : begun? m around args = some (s, c)) (level : Level) :
    s.thresholds.lets level = decide (s.thresholds.root ≤ level.number) := by
  have hinitial (level' : Level) (toFile : Bool) :
      (Thresholds.initial level' toFile).lets level =
        decide ((Thresholds.initial level' toFile).root ≤ level.number) := by
    cases toFile <;> simp [Thresholds.initial, Thresholds.lets]
  have hchange (level' : Level) (toFile : Bool) (name : Text) :
      ((Thresholds.initial level' toFile).change name).lets level =
        decide (((Thresholds.initial level' toFile).change name).root ≤ level.number) := by
    cases toFile <;> simp [Thresholds.initial, Thresholds.change, Thresholds.lets]
  unfold begun? at hbegun
  split at hbegun
  · next i settings fs hread hprepare =>
    obtain ⟨a, -, hpair⟩ := Option.map_eq_some_iff.mp hbegun
    obtain ⟨rfl, -⟩ := Prod.mk.inj hpair
    unfold Shell.start
    cases i.level with
    | none => exact hinitial _ _
    | some name => exact hchange _ _ _
  · cases hbegun

/-- The records that pass the thresholds are those that are at least as grave as the threshold of
all records. -/
theorem Shell.kept_eq
    (hlets : ∀ level, s.thresholds.lets level = decide (s.thresholds.root ≤ level.number))
    (os : List Occurrence) :
    s.kept os = (os.filterMap Occurrence.record?).filter (Record.passes s.thresholds.root) := by
  unfold kept
  induction os with
  | nil => rfl
  | cons o os ih =>
    cases o with
    | logged r =>
      have hkept : isKept s.thresholds (.logged r) = r.passes s.thresholds.root := hlets r.level
      have hrecord : (Occurrence.logged r).record? = some r := rfl
      rw [List.filter_cons, List.filterMap_cons, hrecord]
      dsimp only
      rw [List.filter_cons, hkept]
      split
      · rw [List.filterMap_cons, hrecord, ih]
      · exact ih
    | slept | notified | asked | called | printed => exact ih

/-- **The log has one line for each record.** A process carries out a command, its log is written to
a file, and nothing else is written there. No context of a record that it makes has a key that is
the name of a part of a record. The records that count for it are those that are at least as grave
as its threshold, in the order in which they are made. If these are plain, the file holds in the end
what it held before, and then one line for each of them, which a line feed ends: there is no other
line feed in the line, and read as JSON it gives back the level, the name of the part of the
program, the message, and the value under each key of the context. -/
theorem log_has_one_line_per_record (hbegun : begun? m around args = some (s, c))
    (halone : s.LogsAlone l c.output?)
    (hplain : ∀ r ∈ (run m around args).records, r.IsPlain) :
    (∀ r ∈ (c.job.exec s).2.records, ∀ key ∈ Json.keys r.context, key ∉ Record.partKeys) ∧
    (run m around args).records =
      (c.job.exec s).2.records.filter (Record.passes s.thresholds.root) ∧
    ∃ bytes, (run m around args).machine.files.contents l = s.machine.files.contents l ++ bytes ∧
      Record.AreToldBy (run m around args).records bytes := by
  obtain ⟨-, hpast⟩ := around_of_begun? hbegun
  have hkeeps := c.keepsLog l s (halone.hasLog hbegun)
  obtain ⟨os, hos, husual, hcontents⟩ := hkeeps.written
  rw [hpast, List.append_nil] at hos
  have hmade : (c.job.exec s).2.records = os.filterMap Occurrence.record? := by
    rw [Shell.records, hos, List.reverse_reverse]
  have hmadeUsual : ∀ r ∈ (c.job.exec s).2.records, r.IsUsual := by
    rw [hmade]
    intro r hr
    obtain ⟨o, ho, hor⟩ := List.mem_filterMap.mp hr
    exact husual o ho r hor
  have hkept : (run m around args).records = s.kept os := by
    rw [run_of_begun? hbegun, Outcome.records, occurrences_carryOut, hkeeps.thresholds, hos,
      List.reverse_reverse]
    rfl
  have hpassing : (run m around args).records =
      (c.job.exec s).2.records.filter (Record.passes s.thresholds.root) := by
    rw [hkept, hmade, Shell.kept_eq (lets_of_begun? hbegun)]
  have hkeptUsual : ∀ r ∈ (run m around args).records, r.IsUsual := by
    rw [hpassing]
    exact fun r hr => hmadeUsual r (List.mem_filter.mp hr).1
  refine ⟨fun r hr key hkey hpart => ?_, hpassing,
    (run m around args).records.flatMap (Files.recordBytes s.around.time), ?_,
    Record.areToldBy hkeptUsual hplain s.around.time⟩
  · exact (List.nodup_append.mp (hmadeUsual r hr).context.nodup).2.2 key hpart key hkey rfl
  · rw [hkept, ← hcontents, run_of_begun? hbegun, machine_carryOut]

end Begun

/-- A button is pressed whose label has a line feed, quotation marks, a brace and a backslash. The
four records about it come after the line that was in the log before, each in one line. -/
theorem log_has_one_line_per_record_of_press :
    let x : Workflow := ⟨"Go\n\"now\" \x7b\\", [⟨"a1", .setLocalStorage, some [("key", "a\nb"),
      ("value", "1")]⟩, ⟨"a2", .promptAndShow, none⟩]⟩
    let stored : Json := .object [("workflowConfig", .text x.toJson.asciiLine)]
    let earlier : Bytes := (Utf8.encode "before\n").toOption.getD []
    let log : Location := ["home", "button-workflow.log"]
    let m : Machine :=
      { files := ⟨["home"], [(["home"], .directory), (["home", ".button_workflow"], .directory),
          (["home", ".button_workflow", "local_storage.json"],
            .file ((Utf8.encode stored.asciiLine).toOption.getD [])),
          (log, .file earlier)], []⟩ }
    let around : Surroundings := { environment := [("LOG_TO_FILE", "true")], input := "Ada\n" }
    ∃ s, begun? m around ["run"] = some (s, .press none none 1 none) ∧ s.LogsAlone log none ∧
      (run m around ["run"]).records.length = 4 ∧
      (∀ r ∈ (run m around ["run"]).records, r.IsPlain) ∧
      ∃ bytes, (run m around ["run"]).machine.files.contents log = earlier ++ bytes ∧
        Record.AreToldBy (run m around ["run"]).records bytes := by
  intro x stored earlier log m around
  have hstate : Carries m around ["run"] fun s c =>
      c = .press none none 1 none ∧ s.settings.logToFile = true ∧
      s.machine.files.writable s.settings.logFile = .ok log ∧
      s.machine.files.locate s.settings.storageFile ≠ .ok log ∧
      s.machine.files.at? log = some (.file earlier) := by
    decide +kernel
  have hrecords : (run m around ["run"]).records.length = 4 ∧
      ∀ r ∈ (run m around ["run"]).records, r.IsPlain := by
    decide +kernel
  obtain ⟨⟨s, c⟩, hbegun⟩ := Option.isSome_iff_exists.mp
    (by decide +kernel : (begun? m around ["run"]).isSome = true)
  obtain ⟨rfl, hlogs, hwritable, hstorage, hearlier⟩ := hstate _ hbegun
  have halone : s.LogsAlone log none :=
    ⟨⟨hlogs, (Files.writable_eq_ok_iff.mp hwritable).1⟩, hwritable, hstorage, nofun⟩
  obtain ⟨-, -, bytes, hcontents, htold⟩ :=
    log_has_one_line_per_record hbegun halone hrecords.2
  have hbefore : s.machine.files.contents log = earlier := by simp [Files.contents, hearlier]
  rw [hbefore] at hcontents
  exact ⟨s, hbegun, halone, hrecords.1, hrecords.2, bytes, hcontents, htold⟩

/-- Not every log has one line for each record. The file may also be that of the storage, or the one
that a command is told to write. -/
theorem not_every_log_has_one_line_per_record :
    (¬ ∀ (m : Machine) (around : Surroundings) (args : List Text) (s : Shell) (c : Command)
        (l : Location), begun? m around args = some (s, c) → s.LogsAt l → c.output? = none →
      (∀ r ∈ (run m around args).records, r.IsPlain) →
      ∃ bytes, (run m around args).machine.files.contents l = s.machine.files.contents l ++ bytes ∧
        Record.AreToldBy (run m around args).records bytes) ∧
    ¬ ∀ (m : Machine) (around : Surroundings) (args : List Text) (s : Shell) (c : Command)
        (l : Location), begun? m around args = some (s, c) → s.LogsAt l →
      s.machine.files.locate s.settings.storageFile ≠ .ok l →
      (∀ r ∈ (run m around args).records, r.IsPlain) →
      ∃ bytes, (run m around args).machine.files.contents l = s.machine.files.contents l ++ bytes ∧
        Record.AreToldBy (run m around args).records bytes := by
  have hclosed : Symbol.char '}' ≠ .char '\n' := by decide
  constructor
  · intro h
    let storage : Location := ["home", ".button_workflow", "local_storage.json"]
    let m : Machine := { files := ⟨["home"], [(["home"], .directory)], []⟩ }
    let around : Surroundings :=
      { environment := [("LOG_TO_FILE", "true"), ("LOG_LEVEL", "ERROR"),
          ("LOG_FILE", ".button_workflow/local_storage.json")] }
    have hstate : Carries m around ["label", "Go"] fun s c => c = .label "Go" ∧
        s.settings.logToFile = true ∧ s.machine.files.locate s.settings.logFile = .ok storage ∧
        s.machine.files.contents storage = [] := by
      decide +kernel
    have hlast : (Utf8.decode ((run m around ["label", "Go"]).machine.files.contents
        storage)).toOption.bind List.getLast? = some (.char '}') := by
      decide +kernel
    have hplain : ∀ r ∈ (run m around ["label", "Go"]).records, r.IsPlain := by decide +kernel
    obtain ⟨⟨s, c⟩, hbegun⟩ := Option.isSome_iff_exists.mp
      (by decide +kernel : (begun? m around ["label", "Go"]).isSome = true)
    obtain ⟨rfl, hlogs, hplace, hbefore⟩ := hstate _ hbegun
    exact Record.not_told_of_getLast? hbefore hlast hclosed
      (h m around ["label", "Go"] s _ storage hbegun ⟨hlogs, hplace⟩ rfl hplain)
  · intro h
    let x : Workflow := ⟨"Go", [⟨"a1", .showText, some [("text", "hi")]⟩]⟩
    let stored : Json := .object [("workflowConfig", .text x.toJson.asciiLine)]
    let log : Location := ["home", "run.log"]
    let args : List Text := ["run", "--json-out", "run.log"]
    let m : Machine :=
      { files := ⟨["home"], [(["home"], .directory), (["home", ".button_workflow"], .directory),
          (["home", ".button_workflow", "local_storage.json"],
            .file ((Utf8.encode stored.asciiLine).toOption.getD []))], []⟩ }
    let around : Surroundings :=
      { environment := [("LOG_TO_FILE", "true"), ("LOG_FILE", "run.log")] }
    have hstate : Carries m around args fun s c => c = .press none none 1 (some "run.log") ∧
        s.settings.logToFile = true ∧ s.machine.files.locate s.settings.logFile = .ok log ∧
        s.machine.files.locate s.settings.storageFile ≠ .ok log ∧
        s.machine.files.contents log = [] := by
      decide +kernel
    have hlast : (Utf8.decode ((run m around args).machine.files.contents
        log)).toOption.bind List.getLast? = some (.char '}') := by
      decide +kernel
    have hplain : ∀ r ∈ (run m around args).records, r.IsPlain := by decide +kernel
    obtain ⟨⟨s, c⟩, hbegun⟩ := Option.isSome_iff_exists.mp
      (by decide +kernel : (begun? m around args).isSome = true)
    obtain ⟨rfl, hlogs, hplace, hstorage, hbefore⟩ := hstate _ hbegun
    exact Record.not_told_of_getLast? hbefore hlast hclosed
      (h m around args s _ log hbegun ⟨hlogs, hplace⟩ hstorage hplain)

end Cli

end PushButton
