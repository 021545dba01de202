import PushButton.Cli.Program
import PushButton.Proofs.Cli.Editor
import PushButton.Proofs.Cli.Exec
import PushButton.Proofs.Results

/-!
# Commands are operations of an editor

A process at a desk finds the workflow of an editor there. A command that edits the stored workflow
leaves the desk with the workflow of the editor after the operation that the command stands for,
however the process ends: what is stored is stored before anything is said about it.
-/

namespace PushButton

namespace Cli

/-- The operation that a command stands for, given the files that it may read. -/
def Command.operation? (fs : Files) : Command → Option Operation
  | .label t => some (.relabel t)
  | .add kind params => some (.add kind params)
  | .remove id => some (.remove id)
  | .moveUp index => some (.moveUp index)
  | .moveDown index => some (.moveDown index)
  | .clear all => some (if all then .renew else .clear)
  | .load path => (Workflow.load fs (.ofText path)).toOption.map .replace
  | _ => none

/-- A command edits the stored workflow, or it says how such a command is used. -/
def Command.edits : Command → Bool
  | .label _ | .add _ _ | .remove _ | .moveUp _ | .moveDown _ | .clear _ | .load _ | .help _ => true
  | _ => false

/-- A process works at a desk, and the desk keeps the workflow of an editor. -/
structure Shell.Shows (d : Desk) (e : Editor) (s : Shell) : Prop where
  /-- The storage is the file of the desk. -/
  path : s.settings.storageFile = d.path
  /-- The workflow is stored under the key of the desk. -/
  key : s.settings.configKey = d.key
  /-- A new workflow has the label of the desk. -/
  label : s.settings.label = d.label
  /-- A log file is at another location than the storage. -/
  log : s.settings.logToFile = true → ∃ l m, s.machine.files.locate s.settings.logFile = .ok l ∧
    s.machine.files.locate d.path = .ok m ∧ l ≠ m
  /-- The items of the file keep the workflow. -/
  items : ∃ items, Storage.InPlace s.machine.files d.path items ∧ e.IsIn d items
  /-- As many action ids were given. -/
  ids : s.machine.actionIds = e.ids

namespace Shell.Shows

open Job

variable {d : Desk} {e e' : Editor} {s : Shell} {α : Type}

/-- What has happened makes no difference. -/
theorem past (h : s.Shows d e) (past : List Occurrence) : Shows d e { s with past := past } :=
  ⟨h.path, h.key, h.label, h.log, h.items, h.ids⟩

/-- A job that only speaks leaves the desk. -/
theorem of_speaks (h : s.Shows d e) {job : Job α} (hjob : job.Speaks) :
    (job.exec s).2.Shows d e := by
  obtain ⟨past, hs⟩ := hjob s
  rw [hs]
  exact h.past past

/-- Other files leave the process at the desk if no directory is taken away. -/
theorem files (h : s.Shows d e) {fs : Files} (hkeeps : Files.KeepsDirectories s.machine.files fs)
    {items : StoredItems} (hplace : Storage.InPlace fs d.path items) (hin : e'.IsIn d items)
    (hids : e'.ids = e.ids) : Shows d e' { s with machine := { s.machine with files := fs } } where
  path := h.path
  key := h.key
  label := h.label
  log := by
    intro hlog
    obtain ⟨l, m, hl, hm, hne⟩ := h.log hlog
    exact ⟨l, m, hkeeps.locate hl, hkeeps.locate hm, hne⟩
  items := ⟨items, hplace, hin⟩
  ids := h.ids.trans hids.symm

/-- The storage of a process at a desk is the file of the desk. -/
theorem exec_shelf (h : s.Shows d e) : shelf.exec s = (.ok ⟨.file d.path, s.machine.files⟩, s) := by
  rw [Job.exec_shelf, h.path]

/-- The log of a process at a desk is not written to the file of the desk. -/
theorem elsewhere (h : s.Shows d e) {l : Location} (hl : s.LogsAt l) :
    s.machine.files.locate d.path ≠ .ok l := by
  obtain ⟨l', m, hl', hm, hne⟩ := h.log hl.1
  obtain rfl := Except.ok.inj (hl.2.symm.trans hl')
  rw [hm]
  exact fun hsame => hne (Except.ok.inj hsame).symm

/-- A process finds the workflow of the editor. -/
theorem exec_edited (h : s.Shows d e) : edited.exec s = (.ok e.workflow, s) := by
  obtain ⟨items, hplace, hin⟩ := h.items
  simp [edited, stored?, h.exec_shelf, h.key, h.label, hin.loadWorkflow hplace.items,
    hin.getD_kept?, Except.map]

/-- What happens leaves the desk: records are written to a log file at another location. -/
theorem occur (h : s.Shows d e) (os : List Occurrence) : ((Job.occur os).exec s).2.Shows d e := by
  obtain ⟨items, hplace, hin⟩ := h.items
  have hentry := s.entry?_journal hplace.directory (fun _ => h.elsewhere) os
  have hkeeps := (s.keepsDirectories_journal os).1
  exact (h.files hkeeps (hplace.of_entry hkeeps hentry) hin rfl).past _

/-- Storing a workflow offers it to the editor. -/
theorem store (h : s.Shows d e) {w : Workflow} (hw : w.Made) :
    ((store w).exec s).2.Shows d (e.offer d w) := by
  obtain ⟨items, hplace, hin⟩ := h.items
  obtain ⟨result, fs, hset, hkeeps, hplace'⟩ := hplace.set d.key (w.dump none)
  have hsave : ∃ records, (⟨.file d.path, s.machine.files⟩ : Shelf).saveWorkflow d.key w =
      (result, ⟨.file d.path, fs⟩, records) := by
    rw [Shelf.saveWorkflow, Shelf.setLogged, hset]
    cases result <;> exact ⟨_, rfl⟩
  obtain ⟨records, hsave⟩ := hsave
  have hkept := h.files hkeeps hplace' (hin.offer (Shelf.nodup_keys_of_items hplace.items) hw)
    (Editor.ids_offer d e w)
  simpa [Job.store, h.exec_shelf, h.key, hsave, putFiles, Job.occur]
    using hkept.occur (records.map .logged)

/-- Storing a workflow and saying something about it offers the workflow to the editor. -/
theorem store_then (h : s.Shows d e) {w : Workflow} (hw : w.Made) {next : Unit → Job α}
    (hnext : ∀ u, (next u).Speaks) : ((Job.store w >>= next).exec s).2.Shows d (e.offer d w) := by
  have hstore := h.store hw
  rw [exec_bind]
  split
  · next u s' hs =>
    rw [hs] at hstore
    exact hstore.of_speaks (hnext u)
  · next f s' hs =>
    rw [hs] at hstore
    exact hstore

/-- Storing a workflow where there is one, and otherwise saying that there is none, offers it to the
editor. -/
theorem store_then? (h : s.Shows d e) {w : Option Workflow} (hw : ∀ w' ∈ w, w'.Made)
    {next : Unit → Job α} (hnext : ∀ u, (next u).Speaks) {otherwise : Job α}
    (hotherwise : otherwise.Speaks) :
    ((match w with
      | none => otherwise
      | some w => Job.store w >>= next).exec s).2.Shows d (e.offer? d w) := by
  cases w with
  | none => exact h.of_speaks hotherwise
  | some w => exact h.store_then (hw w rfl) hnext

/-- The label command replaces the label. -/
theorem relabel (h : s.Shows d e) (t : Text) :
    ((Job.label t).exec s).2.Shows d (e.apply d (.relabel t)) := by
  obtain ⟨_, _, hin⟩ := h.items
  rw [Job.label, exec_bind, h.exec_edited]
  exact h.store_then (hin.made.relabelled t) fun _ => speaks_say _

/-- The remove command removes the actions with an id. -/
theorem remove (h : s.Shows d e) (id : Text) :
    ((Job.remove id).exec s).2.Shows d (e.apply d (.remove id)) := by
  obtain ⟨_, _, hin⟩ := h.items
  rw [Job.remove, exec_bind, h.exec_edited]
  exact h.store_then? (fun w hw => hin.made.removed hw) (fun _ => speaks_say _)
    (ends_say_exit _ _).speaks

/-- A command that moves an action moves it, if it can be moved. -/
theorem move (h : s.Shows d e) (index target : Int) (direction : Text)
    {moved : Workflow → Option Workflow} (hmoved : ∀ w' ∈ moved e.workflow, w'.Made) :
    ((Job.move index target direction moved).exec s).2.Shows d (e.offer? d (moved e.workflow)) := by
  rw [Job.move, exec_bind, h.exec_edited]
  exact h.store_then? hmoved (fun _ => speaks_say _) (speaks_say _)

/-- The clear command removes all actions. -/
theorem clear (h : s.Shows d e) : (Job.clear.exec s).2.Shows d (e.apply d .clear) := by
  obtain ⟨_, _, hin⟩ := h.items
  rw [Job.clear, exec_bind, h.exec_edited]
  exact h.store_then hin.made.cleared fun _ => speaks_say _

/-- The clear command for the workflow as a whole puts a new workflow in its place. -/
theorem renew (h : s.Shows d e) : (Job.clearAll.exec s).2.Shows d (e.apply d .renew) := by
  obtain ⟨items, hplace, hin⟩ := h.items
  obtain ⟨result, fs, hremove, hkeeps, hplace'⟩ := hplace.remove d.key
  have hkept := h.files hkeeps hplace' hin.renew (Editor.ids_apply_renew d e)
  have hdiscard : discardStored.exec s =
      ((result.mapError StorageError.failure).mapError .failed,
        { s with machine := { s.machine with files := fs } }) := by
    simp [discardStored, h.exec_shelf, h.key, hremove, putFiles]
  rw [clearAll, exec_bind, hdiscard]
  cases result with
  | ok _ => exact hkept.of_speaks (speaks_say _)
  | error _ => exact hkept

/-- The texts of parameters have distinct names. -/
theorem nodup_keys_of_paramsOf {texts : List Text} {params : List (Text × Json)}
    (h : paramsOf texts = .ok params) : (Json.keys params).Nodup := by
  unfold paramsOf at h
  have hempty : (Json.keys ([] : List (Text × Json))).Nodup := List.nodup_nil
  generalize ([] : List (Text × Json)) = acc at h hempty
  induction texts generalizing acc with
  | nil =>
    cases h
    exact hempty
  | cons t rest ih =>
    rw [List.foldlM_cons] at h
    obtain ⟨next, hnext, hrest⟩ := exists_of_bind_eq_ok h
    split at hnext
    · cases hnext
      exact ih _ hrest (Json.nodup_keys_put hempty _ _)
    · cases hnext

/-- A new action takes the next id of the editor. -/
theorem newAction (h : s.Shows d e) (kind : ActionKind) (params : List (Text × Json)) :
    ∃ s', (Job.newAction kind params).exec s =
        (.ok (Action.make (Action.idOf (e.ids + 1)) kind params), s') ∧
      s'.Shows d { e with ids := e.ids + 1 } := by
  have hoccur := h.occur ((Action.makeRecords kind params).map .logged)
  let s₁ := ((Job.occur ((Action.makeRecords kind params).map .logged)).exec s).2
  let s₂ : Shell :=
    { s₁ with machine := { s₁.machine with actionIds := s₁.machine.actionIds + 1 } }
  obtain ⟨items, hplace, hin⟩ := hoccur.items
  refine ⟨s₂, ?_, ⟨hoccur.path, hoccur.key, hoccur.label, hoccur.log, ⟨items, hplace, hin.ids _⟩,
    congrArg (· + 1) hoccur.ids⟩⟩
  rw [← h.ids]
  rfl

/-- The add command adds an action, if its kind and its parameters can be read. -/
theorem add (h : s.Shows d e) (kind : Text) (params : List Text) :
    ((Job.add kind params).exec s).2.Shows d (e.apply d (.add kind params)) := by
  obtain ⟨_, _, hin⟩ := h.items
  rw [Job.add, exec_bind, h.exec_edited, Editor.apply]
  dsimp only
  cases hparams : paramsOf params with
  | error f => exact h
  | ok params =>
    cases hkind : Workflow.kindOf kind with
    | error u => exact h.of_speaks (ends_say_exit _ _).speaks
    | ok kind =>
      have hmade : (e.workflow.add (Action.make (Action.idOf (e.ids + 1)) kind params)).Made :=
        .added _ kind (nodup_keys_of_paramsOf hparams) hin.made
      -- the id is given before the workflow is stored, and stays given when it cannot be
      obtain ⟨s', hnew, hnext⟩ := h.newAction kind params
      dsimp only
      rw [exec_bind, hnew]
      exact hnext.store_then hmade fun _ => speaks_say _

/-- The import command puts the workflow of a file in place of the other one, if the file can be
loaded. -/
theorem bringIn (h : s.Shows d e) (path : Text) : ((Job.bringIn path).exec s).2.Shows d
    (e.offer? d (Workflow.load s.machine.files (.ofText path)).toOption) := by
  have hload : (load path).exec s = (((Workflow.load s.machine.files (.ofText path)).mapError
      (·.failure (.ofText path))).mapError .failed, s) := by
    simp [load, Job.files]
  rw [Job.bringIn, exec_bind, exec_tryCatch, hload]
  cases hw : Workflow.load s.machine.files (.ofText path) with
  | ok w => exact h.store_then (.loaded hw) fun _ => speaks_say _
  | error f =>
    -- the failure is said or passed on, and either way nothing is stored
    let failure := f.failure (.ofText path)
    have hends : (if failure.kind.isInvalid then do
        say (errorWord ++ aboutFile path failure.message)
        exit 1
      else fail failure : Job Workflow).Ends := by
      split
      · exact ends_say_exit _ _
      · exact .throw _
    obtain ⟨ending, past, hs⟩ := hends s
    dsimp only [Except.mapError]
    rw [hs]
    exact h.past past

/-- **A command is an operation.** Whatever becomes of it, a command that edits the stored workflow
leaves the desk with the workflow of the editor after the operation that the command stands for. -/
theorem command (h : s.Shows d e) {c : Command} (hc : c.edits = true) :
    (c.job.exec s).2.Shows d (e.applyAll d (c.operation? s.machine.files).toList) := by
  cases c with
  | label t => exact h.relabel t
  | add kind params => exact h.add kind params
  | remove id => exact h.remove id
  | moveUp index =>
    obtain ⟨_, _, hin⟩ := h.items
    exact h.move index _ _ fun w hw => hin.made.movedUp hw
  | moveDown index =>
    obtain ⟨_, _, hin⟩ := h.items
    exact h.move index _ _ fun w hw => hin.made.movedDown hw
  | clear all =>
    cases all with
    | true => exact h.renew
    | false => exact h.clear
  | load path =>
    have hload := h.bringIn path
    rw [Command.operation?]
    cases hw : (Workflow.load s.machine.files (.ofText path)).toOption with
    | none => rwa [hw] at hload
    | some w => rwa [hw] at hload
  | help name => exact h.of_speaks (speaks_say _)
  | _ => cases hc

end Shell.Shows

end Cli

end PushButton
