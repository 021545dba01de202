import PushButton.Proofs.Cli.Endings
import PushButton.Proofs.Storage.Calls
import PushButton.Proofs.Workflow.Plain

/-!
# Processes that fail

A command that edits the stored workflow stores it in one step, with all its checks in front of that
step and nothing but a report behind it. So a process that fails has changed no file, with two
reservations: the log file is written however a process ends, and the report about an action that
was removed may name an id that cannot be printed.
-/

namespace PushButton

namespace Cli

/-- A later state of a process with the same settings, in which no file has changed but that of the
log: at most directories were made. -/
structure Shell.Spares (s s' : Shell) : Prop where
  /-- The settings are the same. -/
  settings : s'.settings = s.settings
  /-- No directory was taken away. -/
  keeps : s.machine.files.KeepsDirectories s'.machine.files
  /-- The files are the same, but for that of the log. -/
  file {l : Location} : ¬ s'.LogsAt l → ∀ bytes,
    s'.machine.files.at? l = some (.file bytes) ↔ s.machine.files.at? l = some (.file bytes)

namespace Shell.Spares

/-- Where at most directories were made, no file has changed. -/
theorem of_grows {s s' : Shell} (hsettings : s'.settings = s.settings)
    (hgrows : s.machine.files.Grows s'.machine.files) : s.Spares s' :=
  ⟨hsettings, hgrows.keepsDirectories, fun _ _ => hgrows.file_iff⟩

/-- What has happened changes no file. -/
theorem past (s : Shell) (past : List Occurrence) : s.Spares { s with past := past } :=
  .of_grows rfl (.refl s.machine.files)

/-- Nothing changes no file. -/
theorem refl (s : Shell) : s.Spares s := past s s.past

/-- Of two steps that change no file the log is that of the second one. -/
theorem trans {s₁ s₂ s₃ : Shell} (h : s₁.Spares s₂) (h' : s₂.Spares s₃) : s₁.Spares s₃ := by
  refine ⟨h'.settings.trans h.settings, h.keeps.trans h'.keeps, fun {l} hl bytes => ?_⟩
  have hlog : ¬ s₂.LogsAt l := by
    rintro ⟨hlogs, hlog⟩
    refine hl ⟨?_, ?_⟩
    · rw [h'.settings, hlogs]
    · rw [h'.settings, h'.keeps.locate hlog]
  exact (h'.file hl bytes).trans (h.file hlog bytes)

end Shell.Spares

namespace Job

variable {α β : Type} {job : Job α} {s s₀ : Shell}

/-- What happens changes no file but that of the log. -/
theorem spares_occur (os : List Occurrence) (s : Shell) : s.Spares ((occur os).exec s).2 := by
  obtain ⟨hkeeps, hothers⟩ := s.keepsDirectories_journal os
  refine ⟨rfl, hkeeps, fun {l} hl bytes => ?_⟩
  have hlog : ¬ s.LogsAt l := fun ⟨hlogs, hlog⟩ => hl ⟨hlogs, hkeeps.locate hlog⟩
  change (s.journal s.machine.files os).at? l = _ ↔ _
  rw [hothers l hlog]

/-- A job that only speaks changes no file. -/
theorem Speaks.spares (hjob : job.Speaks) (s : Shell) : s.Spares (job.exec s).2 := by
  obtain ⟨past, hs⟩ := hjob s
  rw [hs]
  exact .past s past

/-- A job that only speaks changes no file, whether it gives a value or not. -/
theorem Speaks.leads_spares (hjob : job.Speaks) (s : Shell) :
    job.Leads (fun _ s' => s.Spares s') (fun _ s' => s.Spares s') s :=
  hjob.leads (fun _ => .past s) fun _ => .past s

/-- Storing a workflow changes no file if it fails. -/
theorem spares_of_store (w : Workflow) (hs : s₀.Spares s) :
    (store w).Leads (fun _ _ => True) (fun _ s' => s₀.Spares s') s := by
  obtain ⟨records, hexec⟩ := exec_store w s
  have hleaves := (shelfOf s).leaves_set s.settings.configKey (w.dump none)
  unfold Leads
  rw [hexec]
  generalize (shelfOf s).set s.settings.configKey (w.dump none) = out at hleaves
  obtain ⟨result, shelf⟩ := out
  cases result with
  | ok _ => trivial
  | error e =>
    let stored : Shell := { s with machine := { s.machine with files := shelf.files } }
    have hstored : s.Spares stored := .of_grows rfl hleaves.grows
    exact hs.trans (hstored.trans (spares_occur (records.map .logged) stored))

/-- Discarding the workflow changes no file if it fails. -/
theorem spares_of_discardStored (s : Shell) :
    discardStored.Leads (fun _ _ => True) (fun _ s' => s.Spares s') s := by
  have hleaves := (shelfOf s).leaves_remove s.settings.configKey
  unfold Leads
  rw [exec_discardStored]
  generalize (shelfOf s).remove s.settings.configKey = out at hleaves
  obtain ⟨result, shelf⟩ := out
  cases result with
  | ok _ => trivial
  | error e => exact .of_grows rfl hleaves.grows

/-- A plain line is said, and the process does not end. -/
theorem leads_say {E : Ending → Shell → Prop} {line : Text} (h : line.IsPlain) (s : Shell) :
    (say line).Leads (fun _ _ => True) E s := by
  unfold Leads
  rw [exec_say_of_isPlain h]
  trivial

/-- A workflow is stored and something plain is said about it: if that fails, no file has changed.
-/
theorem spares_of_store_say (w : Workflow) {line : Text} (h : line.IsPlain)
    (hs : s₀.Spares s) :
    (do store w; say line).Leads (fun _ _ => True) (fun _ s' => s₀.Spares s') s :=
  (spares_of_store w hs).bind fun _ _ _ => leads_say h _

end Job

/-! ## Commands -/

/-- A command that changes no file at all: it shows, checks or prints. -/
def Command.isReading : Command → Bool
  | .config | .types | .show | .validate _ | .help _ => true
  | .save path => (path.filter fun t => !t.isEmpty).isNone
  | _ => false

/-- A command that changes no file if it fails: all but presses and what is written to a file, and
not the removal of an action with an id that cannot be printed. -/
def Command.Recoils (s : Shell) : Command → Prop
  | .remove id => id.IsPlain ∨ ∀ w ∈ Job.found? s, w.remove? id = none
  | .save path => (path.filter fun t => !t.isEmpty).isNone = true
  | .press _ _ _ _ => False
  | _ => True

instance (s : Shell) : DecidablePred (Command.Recoils s)
  | .remove id =>
    inferInstanceAs (Decidable (id.IsPlain ∨ ∀ w ∈ Job.found? s, w.remove? id = none))
  | .save path => inferInstanceAs (Decidable ((path.filter fun t => !t.isEmpty).isNone = true))
  | .press _ _ _ _ => instDecidableFalse
  | .config | .types | .show | .label _ | .add _ _ | .moveUp _ | .moveDown _ | .clear _ | .load _
  | .validate _ | .help _ => instDecidableTrue

/-- A command that moves an action. -/
def Command.isMove : Command → Bool
  | .moveUp _ | .moveDown _ => true
  | _ => false

namespace Command

open Job

/-- A file is checked. -/
theorem speaks_check (path : Text) : (check path).Speaks := by
  refine Speaks.tryCatch ((speaks_load path).bind fun w => (speaks_say _).bind fun _ => .pure _) ?_
  intro e
  cases e with
  | exit | usage => exact .throw _
  | failed f =>
    dsimp only
    split
    · exact (speaks_say _).bind fun _ => .pure _
    · exact .throw _

/-- The stored workflow is shown. -/
theorem speaks_showStored : showStored.Speaks := by
  refine (speaks_stored _).bind fun w => ?_
  split
  · exact speaks_say _
  · exact (speaks_ofExcept _).bind fun _ => speaks_printText _

/-- A command that shows, checks or prints only speaks. -/
theorem speaks_of_isReading {c : Command} (hc : c.isReading = true) : c.job.Speaks := by
  cases c with
  | config =>
    have hget : (get : Job Shell).Speaks := fun s => ⟨s.past, rfl⟩
    exact hget.bind fun s => speaks_say _
  | types =>
    change listKinds.Speaks
    unfold listKinds
    exact .forM fun k => speaks_say _
  | «show» => exact speaks_showStored
  | validate paths => exact (Speaks.mapM speaks_check).bind fun _ => .throw _
  | help name => exact speaks_say _
  | save path =>
    have hnone : (path.filter fun t => !t.isEmpty) = none := Option.isNone_iff_eq_none.mp hc
    refine (speaks_stored _).bind fun w => ?_
    rw [hnone]
    exact speaks_say _
  | label | add | remove | moveUp | moveDown | clear | load | press => cases hc

/-- A workflow is taken for editing, and then something is done that changes no file if it fails. -/
theorem spares_of_edited {s : Shell} {next : Workflow → Job Unit}
    (hnext : ∀ w, w = (found? s).getD (.new s.settings.label) →
      (next w).Leads (fun _ _ => True) (fun _ s' => s.Spares s') s) :
    (edited >>= next).Leads (fun _ _ => True) (fun _ s' => s.Spares s') s :=
  (leads_edited s fun _ past => Shell.Spares.past s past).bind fun w s' ⟨hs, hw⟩ => by
    subst hs
    exact hnext w hw

/-- A job that ends the process, saying something at most, changes no file. -/
theorem spares_of_ends {α : Type} {job : Job α} (hjob : job.Ends) (s : Shell) :
    job.Leads (fun _ _ => True) (fun _ s' => s.Spares s') s :=
  hjob.speaks.leads (fun _ _ => trivial) fun _ past => Shell.Spares.past s past

/-- Adding an action changes no file if it fails. -/
theorem spares_of_add (kind : Text) (params : List Text) (s : Shell) :
    (Job.add kind params).Leads (fun _ _ => True) (fun _ s' => s.Spares s') s := by
  refine spares_of_edited fun w _ => ?_
  cases paramsOf params with
  | error f => exact Shell.Spares.refl s
  | ok params =>
    cases Workflow.kindOf kind with
    | error u => exact spares_of_ends (ends_say_exit _ _) s
    | ok kind =>
      have hoccur := spares_occur ((Action.makeRecords kind params).map .logged) s
      have hnew : (newAction kind params).Leads
          (fun a s' => (∃ n, a.id = Action.idOf n) ∧ s.Spares s')
          (fun _ s' => s.Spares s') s := ⟨⟨_, rfl⟩, hoccur.settings, hoccur.keeps, hoccur.file⟩
      refine hnew.bind fun a s'' ⟨⟨n, hid⟩, hs'⟩ => spares_of_store_say _ ?_ hs'
      have hplain : (Action.idOf n).IsPlain := Text.isPlain_hex 32 n
      simp [a.isPlain_describe, hid, hplain]

/-- Moving an action changes no file if it fails. -/
theorem spares_of_move (index target : Int) {direction : Text} (hdirection : direction.IsPlain)
    (moved : Workflow → Option Workflow) (s : Shell) :
    (Job.move index target direction moved).Leads (fun _ _ => True)
      (fun _ s' => s.Spares s') s := by
  refine spares_of_edited fun w _ => ?_
  cases moved w with
  | none => exact leads_say (by simp [hdirection]) _
  | some w => exact spares_of_store_say w (by simp) (.refl s)

/-- A move that is reported as impossible changes no file: what is reported about one that was made
begins in another way. -/
theorem spares_of_not_moved (index target : Int) (direction : Text)
    (moved : Workflow → Option Workflow) {s : Shell} (hpast : s.past = []) :
    (Job.move index target direction moved).Leads
      (fun _ s' => ("Cannot move" : Text) <+: s'.output → s.Spares s')
      (fun _ s' => s.Spares s') s := by
  refine (leads_edited s fun _ past => Shell.Spares.past s past).bind fun w s' ⟨hs, _⟩ => ?_
  subst hs
  cases moved w with
  | none =>
    exact (speaks_say _).leads (fun _ past _ => Shell.Spares.past s' past) fun _ =>
      Shell.Spares.past s'
  | some w =>
    have hstore : (store w).Leads (fun _ s'' => s''.output = s'.output)
        (fun _ s'' => s'.Spares s'') s' := by
      have hspares := spares_of_store w (Shell.Spares.refl s')
      obtain ⟨records, hexec⟩ := exec_store w s'
      unfold Leads at hspares ⊢
      rw [hexec] at hspares ⊢
      generalize (shelfOf s').set s'.settings.configKey (w.dump none) = out at hspares ⊢
      obtain ⟨result, shelf⟩ := out
      cases result with
      | ok _ => exact Shell.output_logged _ records
      | error e => exact hspares
    refine hstore.bind fun _ s'' hsilent => ?_
    have hplain : ("Moved #" ++ Text.ofInt index ++ " -> #" ++ Text.ofInt target).IsPlain := by simp
    unfold Leads
    rw [exec_say_of_isPlain hplain]
    intro hreport
    rw [Shell.output_printed, hsilent, Shell.output, hpast] at hreport
    -- one report begins with C, and the other one with M
    obtain ⟨rest, hreport⟩ := hreport
    cases congrArg List.head? hreport

/-- A command that moves an action changes no file if it reports that it cannot move it. -/
theorem leads_move {c : Command} (hc : c.isMove = true) {s : Shell} (hpast : s.past = []) :
    c.job.Leads (fun _ s' => ("Cannot move" : Text) <+: s'.output → s.Spares s')
      (fun _ s' => s.Spares s') s := by
  cases c with
  | moveUp index => exact spares_of_not_moved _ _ _ _ hpast
  | moveDown index => exact spares_of_not_moved _ _ _ _ hpast
  | _ => cases hc

/-- Bringing in a workflow changes no file if it fails. -/
theorem spares_of_bringIn (path : Text) (s : Shell) :
    (Job.bringIn path).Leads (fun _ _ => True) (fun _ s' => s.Spares s') s := by
  unfold Job.bringIn
  refine Leads.bind (Speaks.leads_spares (.tryCatch (speaks_load path) fun e => ?_) s)
    fun w s' hs => spares_of_store_say w (by simp) hs
  cases e with
  | exit | usage => exact .throw _
  | failed f =>
    dsimp only
    split
    · exact (ends_say_exit _ _).speaks
    · exact .throw _

/-- **A command that fails changes no file.** Whenever such a command ends the process early, all
files are as they were. -/
theorem leads_job {c : Command} {s : Shell} (hc : c.Recoils s) :
    c.job.Leads (fun _ _ => True) (fun _ s' => s.Spares s') s := by
  have hreads (hreading : c.isReading = true) :
      c.job.Leads (fun _ _ => True) (fun _ s' => s.Spares s') s :=
    (speaks_of_isReading hreading).leads (fun _ _ => trivial) fun _ past => Shell.Spares.past s past
  have hedits (edit : Workflow → Workflow) {line : Text} (hline : line.IsPlain) :
      (do let w ← edited; store (edit w); say line).Leads (fun _ _ => True)
        (fun _ s' => s.Spares s') s :=
    spares_of_edited fun w _ => spares_of_store_say (edit w) hline (.refl s)
  cases c with
  | config | types | «show» | validate | help => exact hreads rfl
  | save path => exact hreads hc
  | label t => exact hedits _ (by simp)
  | add kind params => exact spares_of_add kind params s
  | remove id =>
    refine spares_of_edited fun w hw => ?_
    cases hremove : w.remove? id with
    | none => exact spares_of_ends (ends_say_exit _ _) s
    | some removed =>
      have hplain : id.IsPlain := by
        refine hc.resolve_right fun hnone => ?_
        subst hw
        cases hfound : found? s with
        | none =>
          rw [hfound] at hremove
          cases hremove
        | some w =>
          rw [hfound] at hremove
          cases (hnone w hfound).symm.trans hremove
      exact spares_of_store_say removed (by simp [hplain]) (.refl s)
  | moveUp index => exact spares_of_move _ _ (by simp) _ s
  | moveDown index => exact spares_of_move _ _ (by simp) _ s
  | clear all =>
    cases all with
    | false => exact hedits _ (by simp)
    | true =>
      exact (spares_of_discardStored s).bind fun _ s' _ => leads_say (by simp) s'
  | load path => exact spares_of_bringIn path s
  | press => exact hc.elim

end Command

/-! ## Processes -/

/-- The log of a process is written at a location. -/
def LogsAt (m : Machine) (around : Surroundings) (l : Location) : Prop :=
  ∃ settings fs, Settings.prepare m.files around.environment = (.ok settings, fs) ∧
    settings.logToFile = true ∧ fs.locate settings.logFile = .ok l

variable {m : Machine} {around : Surroundings} {args : List Text}

/-- A process changes no file but that of the log, if its job changes none. -/
theorem file_carryOut_start {settings : Settings} {fs : Files} {level : Option Text}
    {job : Job Unit} (hprepare : Settings.prepare m.files around.environment = (.ok settings, fs))
    (h : (Shell.start m around settings fs level).Spares
      (job.exec (.start m around settings fs level)).2)
    {l : Location} (hl : ¬ LogsAt m around l) (bytes : Bytes) :
    (carryOut job (.start m around settings fs level)).machine.files.at? l =
      some (.file bytes) ↔ m.files.at? l = some (.file bytes) := by
  obtain ⟨made, hmade, hlogs⟩ := Settings.exists_of_prepare_eq_ok hprepare
  have hgrows := (Files.makeDirectoriesUpTo_growsAlong hmade).toGrows.trans
    (Files.makeDirectoriesUpTo_growsAlong hlogs).toGrows
  obtain ⟨log, hlog⟩ := Files.exists_locate_of_parent (Files.makeDirectoriesUpTo_eq_ok hlogs).1
  rw [machine_carryOut]
  refine (h.file ?_ bytes).trans hgrows.file_iff
  rintro ⟨hwrites, hlocate⟩
  rw [h.settings] at hwrites hlocate
  -- the log is where it was when the process began
  obtain rfl : log = l := Except.ok.inj ((h.keeps.locate hlog).symm.trans hlocate)
  exact hl ⟨settings, fs, hprepare, hwrites, hlog⟩

/-- **A process that fails changes no file.** Where a process carries out a command that changes no
file if it fails, and it ends with another exit code than 0, there are the same files with the same
bytes afterwards, but for the file of the log. So it is with a process that shows, checks or prints,
and with one that reports that an action cannot be moved. -/
theorem run_leaves_files
    (hreason : Carries m around args Command.Recoils ∧ (run m around args).code ≠ 0 ∨
      Carries m around args (fun _ c => c.isReading = true) ∨
      Carries m around args (fun _ c => c.isMove = true) ∧
        ("Cannot move" : Text) <+: (run m around args).output)
    {l : Location} (hl : ¬ LogsAt m around l) (bytes : Bytes) :
    (run m around args).machine.files.at? l = some (.file bytes) ↔
      m.files.at? l = some (.file bytes) := by
  have hruns := runs_run m around args
  generalize run m around args = o at hreason hruns ⊢
  cases hruns with
  | misused | helps => rfl
  | unprepared hprepare =>
    have hgrows := Settings.grows_prepare m.files around.environment
    rw [hprepare] at hgrows
    exact hgrows.file_iff
  | @carries i settings fs hread hprepare =>
    refine file_carryOut_start hprepare ?_ hl bytes
    let s := Shell.start m around settings fs i.level
    have husage {f : UsageFault} (hjob : i.job fs = throw (.usage (some i.command) f)) :
        s.Spares ((i.job fs).exec s).2 := by
      rw [hjob]
      exact .refl s
    obtain ⟨hrecoils, hcode⟩ | hreading | ⟨hmove, hreport⟩ := hreason
    · obtain ⟨f, hjob⟩ | ⟨c, hc, hjob⟩ := hrecoils.job hread hprepare
      · exact husage hjob
      · rw [hjob] at hcode ⊢
        obtain ⟨e, hspares⟩ := (Command.leads_job hc).of_code hcode
        exact hspares
    · obtain ⟨f, hjob⟩ | ⟨c, hc, hjob⟩ := hreading.job hread hprepare
      · exact husage hjob
      · rw [hjob]
        exact (Command.speaks_of_isReading hc).spares s
    · obtain ⟨f, hjob⟩ | ⟨c, hc, hjob⟩ := hmove.job hread hprepare
      · exact husage hjob
      · rw [output_carryOut, hjob] at hreport
        rw [hjob]
        have hleads := Command.leads_move hc (s := s) rfl
        exact hleads.either (fun _ _ h => h) (fun _ _ h _ => h) hreport

/-- An action that is not there is to be removed: the process fails, and the file of the storage is
as it was. -/
theorem run_leaves_files_missing_action :
    let stored : Json := .object [("workflowConfig", .text (Workflow.new "Go").toJson.asciiLine)]
    let bytes := (Utf8.encode stored.asciiLine).toOption.getD []
    let storage : Location := ["home", ".button_workflow", "local_storage.json"]
    let m : Machine :=
      { files := ⟨["home"], [(["home"], .directory), (["home", ".button_workflow"], .directory),
          (storage, .file bytes)], []⟩ }
    (run m { environment := [] } ["remove", "a9"]).code = 1 ∧
      (run m { environment := [] } ["remove", "a9"]).output = "No action with id 'a9'\n" ∧
      (run m { environment := [] } ["remove", "a9"]).machine.files.at? storage =
        some (.file bytes) := by
  intro stored bytes storage m
  have hcode : (run m { environment := [] } ["remove", "a9"]).code = 1 := by decide +kernel
  have hquiet : (Settings.prepare m.files []).1.toOption.map (·.logToFile) = some false := by
    decide +kernel
  have hlog : ¬ LogsAt m { environment := [] } storage := by
    rintro ⟨settings, fs, hprepare, hlogs, -⟩
    change Settings.prepare m.files [] = _ at hprepare
    rw [hprepare] at hquiet
    exact absurd (hlogs.symm.trans (Option.some.inj hquiet)) (by decide)
  have hrecoils : Carries m { environment := [] } ["remove", "a9"] Command.Recoils := by
    decide +kernel
  have hthere : m.files.at? storage = some (.file bytes) := by decide +kernel
  have hfails := hcode.trans_ne (by decide : 1 ≠ 0)
  have hfile := run_leaves_files (.inl ⟨hrecoils, hfails⟩) hlog bytes
  exact ⟨hcode, by decide +kernel, hfile.mpr hthere⟩

/-- Not every process that fails has changed no file. The report about an action that was removed
may have no bytes; and records of a process that fails are written to the log, be that the file of
the storage. -/
theorem not_every_failing_process_leaves_files :
    (¬ ∀ (m : Machine) (around : Surroundings) (args : List Text),
      Carries m around args (fun _ c => c.edits = true) → (run m around args).code ≠ 0 →
        ∀ l bytes, (run m around args).machine.files.at? l = some (.file bytes) ↔
          m.files.at? l = some (.file bytes)) ∧
    ¬ ∀ (m : Machine) (around : Surroundings) (args : List Text),
      Carries m around args Command.Recoils → (run m around args).code ≠ 0 →
        ∀ l bytes, (run m around args).machine.files.at? l = some (.file bytes) ↔
          m.files.at? l = some (.file bytes) := by
  let storage : Location := ["home", ".button_workflow", "local_storage.json"]
  let bytesOf (v : Json) : Bytes := (Utf8.encode v.asciiLine).toOption.getD []
  let machine (bytes : Bytes) : Machine :=
    { files := ⟨["home"], [(["home"], .directory), (["home", ".button_workflow"], .directory),
        (storage, .file bytes)], []⟩ }
  constructor
  · intro h
    let w : Workflow := ⟨"Go", [⟨[.lone 0], .closeWindow, none⟩]⟩
    let bytes := bytesOf (.object [("workflowConfig", .text w.toJson.asciiLine)])
    have hfile := h (machine bytes) { environment := [] } ["remove", [.lone 0]]
      (by decide +kernel) (by decide +kernel) storage bytes
    exact absurd (hfile.mpr (by decide +kernel)) (by decide +kernel)
  · intro h
    let bytes := bytesOf (.object [("x", .text [.lone 0])])
    let environment : Environment := [("LOG_TO_FILE", "true"), ("LOG_LEVEL", "DEBUG"),
      ("LOG_FILE", ".button_workflow/local_storage.json")]
    have hfile := h (machine bytes) { environment := environment } ["add", "showText", "-p", "x=1"]
      (by decide +kernel) (by decide +kernel) storage bytes
    exact absurd (hfile.mpr (by decide +kernel)) (by decide +kernel)

end Cli

end PushButton
