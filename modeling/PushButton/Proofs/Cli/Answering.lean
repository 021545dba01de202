import PushButton.Proofs.Cli.Endings
import PushButton.Proofs.Storage.InPlace
import PushButton.Proofs.Storage.Messages
import PushButton.Proofs.Workflow.Plain

/-!
# Processes that answer

Whatever is in the file of the storage, a process that edits the stored workflow or writes it out
says what comes of it and ends with an exit code of its own: what is wrong with the file or with the
arguments is reported. There must be nothing that cannot be printed, and no data that are nested too
deeply; and two commands need a storage that can be read, because they do not look whether it can.
-/

namespace PushButton

/-- A workflow can only be looked up in a storage that holds items. -/
theorem Shelf.exists_items_of_loadWorkflow {s : Shelf} {key : Text} {found : Option Workflow}
    (h : s.loadWorkflow key = .ok found) : ∃ items, s.items = .ok items := by
  unfold loadWorkflow get? at h
  cases hitems : s.items with
  | ok items => exact ⟨items, rfl⟩
  | error e =>
    rw [hitems] at h
    cases h

/-- The message about an unknown kind is plain. -/
theorem UnknownKind.isPlain_message (e : UnknownKind) : e.message.IsPlain := by
  have hkinds : (Text.join ", " (ActionKind.all.map ActionKind.name)).IsPlain := by decide +kernel
  simp [message, hkinds]

/-- A file is written in a directory that is there and may be written, unless a directory is in its
place. -/
theorem Files.exists_write_of_parent {fs : Files} {p : Path} (hdots : (".." : Text) ∉ p.names)
    (hdirectory : fs.hasDirectory p.parent = true) (hopen : fs.isClosed p.parent = false)
    (hfree : fs.hasDirectory p = false) (bytes : Bytes) : ∃ fs', fs.write p bytes = .ok fs' := by
  obtain ⟨l, hl⟩ := exists_locate_of_parent hdirectory
  obtain ⟨m, hm, -⟩ := hasDirectory_iff.mp hdirectory
  have hplace : fs.at? l ≠ some .directory := fun hdir => by
    rw [hasDirectory_iff.mpr ⟨l, hl, hdir⟩] at hfree
    cases hfree
  have hnames : p.names ≠ [] := fun hnil => by
    have hsame : p.parent = p := by rw [Path.parent, hnil, List.dropLast_nil, ← hnil]
    rw [hsame, hfree] at hdirectory
    cases hdirectory
  have hadmits : fs.admits l = true := by
    rw [isClosed, hm] at hopen
    rw [admits, dropLast_of_locate hdots hnames hl hm]
    simpa using hopen
  exact ⟨_, write_eq_ok_iff.mpr ⟨l, writable_eq_ok_iff.mpr ⟨hl, hplace, fun _ => hadmits⟩, rfl⟩⟩

namespace Storage

variable {fs : Files} {path : Path} {items : StoredItems} {key value : Text}

/-- A plain text is put under a plain key of a file in place whose other items are plain. -/
theorem InPlace.set_isOk (h : InPlace fs path items) (hkey : key.IsPlain) (hvalue : value.IsPlain)
    (hothers : ArePlain (items.filter (·.1 ≠ key))) :
    ((⟨.file path, fs⟩ : Shelf).set key value).1 = .ok () := by
  have hkeys := Shelf.nodup_keys_of_items h.items
  obtain ⟨result, fs', hwrite, hok, -⟩ := h.write (Json.nodup_keys_put hkeys key value)
  have hresult := hok.mpr ((arePlain_put hkeys).mpr ⟨hothers, hkey, hvalue⟩)
  rw [Shelf.set, h.items]
  dsimp only
  rw [hwrite]
  cases result with
  | ok _ => rfl
  | error e => cases hresult

/-- A key is removed from a file in place whose other items are plain. -/
theorem InPlace.remove_isOk (h : InPlace fs path items)
    (hothers : ArePlain (items.filter (·.1 ≠ key))) :
    ((⟨.file path, fs⟩ : Shelf).remove key).1 = .ok () := by
  have hkeys : (Json.keys (items.filter (·.1 ≠ key))).Nodup :=
    (List.filter_sublist.map _).nodup (Shelf.nodup_keys_of_items h.items)
  obtain ⟨result, fs', hwrite, hok, -⟩ := h.write hkeys
  have hresult := hok.mpr hothers
  rw [Shelf.remove, h.items]
  dsimp only
  split
  · rw [hwrite]
    cases result with
    | ok _ => rfl
    | error e => cases hresult
  · rfl

end Storage

namespace Cli

open Job

/-! ## What can be answered -/

/-- The file of the storage is there or can be: its directory is there, and no directory is in its
own place. -/
structure Shell.HasRoom (s : Shell) : Prop where
  /-- The directory is there. -/
  directory : s.machine.files.hasDirectory s.settings.storageFile.parent = true
  /-- No directory is in the place of the file. -/
  free : s.machine.files.hasDirectory s.settings.storageFile = false

/-- What a process finds in its storage can be said: a workflow that it finds there is plain, or the
new one is that takes its place, and the data are not nested too deeply. -/
structure Shell.Finds (s : Shell) : Prop where
  /-- The path of the file is plain. -/
  path : s.settings.storageFile.shown.IsPlain
  /-- The data are not nested too deeply. -/
  shallow : ∀ f, (shelfOf s).loadWorkflow s.settings.configKey = .error f → f.kind ≠ .tooDeep
  /-- The workflow is plain. -/
  workflow : ((found? s).getD (.new s.settings.label)).IsPlain

/-- The workflow that is found is plain, or the new one is that takes its place. -/
theorem Shell.Finds.isPlain_getD {s : Shell} (h : s.Finds) {found : Option Workflow}
    (hfound : (shelfOf s).loadWorkflow s.settings.configKey = .ok found) :
    (found.getD (.new s.settings.label)).IsPlain := by
  have hworkflow := h.workflow
  unfold found? at hworkflow
  rwa [hfound] at hworkflow

/-- A plain workflow can be stored, if the storage can be read. -/
structure Shell.Stores (s : Shell) : Prop where
  /-- The directory of the file may be written. -/
  opened : s.machine.files.isClosed s.settings.storageFile.parent = false
  /-- The key is plain. -/
  key : s.settings.configKey.IsPlain
  /-- The items under the other keys are plain. -/
  others : ∀ items, (shelfOf s).items = .ok items →
    Storage.ArePlain (items.filter (·.1 ≠ s.settings.configKey))

/-- The log of a process is not written to the file of the storage. -/
def Shell.LogsElsewhere (s : Shell) : Prop :=
  ∀ l, s.LogsAt l → s.machine.files.locate s.settings.storageFile ≠ .ok l

/-- A command can be answered: what it says, stores or writes can be said, stored or written, and
where it does not look whether the storage can be read, it can. What is added may come with records,
and they must not be written to the storage. -/
def Command.IsAnswerable (s : Shell) : Command → Prop
  | .label t => s.Finds ∧ s.Stores ∧ t.IsPlain
  | .add _ params => s.Finds ∧ s.Stores ∧ s.LogsElsewhere ∧ ∀ t ∈ params, t.IsPlain
  | .remove id => s.Finds ∧ s.Stores ∧ id.IsPlain
  | .moveUp _ | .moveDown _ | .clear false => s.Finds ∧ s.Stores
  | .clear true => s.Stores ∧ (shelfOf s).items.isOk = true
  | .load path => s.Stores ∧ (shelfOf s).items.isOk = true ∧
      ∃ w, Workflow.load s.machine.files (.ofText path) = .ok w ∧ w.IsPlain
  | .save path => s.Finds ∧ ∀ t ∈ path.filter fun t => !t.isEmpty,
      s.machine.files.IsWritable ((Path.ofText t).resolved ⟨true, s.machine.files.home⟩) ∧
        ((Path.ofText t).resolved ⟨true, s.machine.files.home⟩).shown.IsPlain
  | .help _ => True
  | .config | .types | .show | .validate _ | .press _ _ _ _ => False

/-- A process that ends early has answered: it has said something and ends with an exit code, or a
fault in its arguments is reported. -/
def Ending.HasAnswered (e : Ending) (s : Shell) : Prop :=
  match e with
  | .exit code => code ≤ 2 ∧ s.output ≠ []
  | .usage _ _ => True
  | .failed _ => False

/-- A process has answered: no failure has ended it, its exit code is at most two, and something was
printed or reported. -/
structure Outcome.HasAnswered (o : Outcome) : Prop where
  /-- No failure has ended it. -/
  handled : ∀ f, o.ending ≠ .failed f
  /-- The exit code is 0, 1 or 2. -/
  code : o.code ≤ 2
  /-- Something was printed or reported. -/
  said : o.output ≠ [] ∨ o.report ≠ []

/-! ## Answers of jobs -/

namespace Job

variable {α : Type} {s : Shell} {Q : α → Shell → Prop}

/-- A job answers: in the end something was said. -/
def Answers (job : Job Unit) (s : Shell) : Prop :=
  job.Leads (fun _ s' => s'.output ≠ []) Ending.HasAnswered s

/-- A line is said. -/
theorem answers_say {line : Text} (h : line.IsPlain) (s : Shell) : (say line).Answers s := by
  unfold Answers Leads
  rw [exec_say_of_isPlain h]
  change Shell.output _ ≠ []
  rw [Shell.output_printed]
  exact List.append_ne_nil_of_right_ne_nil _ (Text.dropControls_line_ne_nil line)

/-- A line is said, and the process ends. -/
theorem answers_say_exit {line : Text} (h : line.IsPlain) {code : Nat} (hcode : code ≤ 2)
    (s : Shell) : (do say line; exit code : Job α).Leads Q Ending.HasAnswered s :=
  (answers_say h s).bind fun _ s' hsaid =>
    show Ending.HasAnswered (.exit code) s' from ⟨hcode, hsaid⟩

/-- The stored workflow is found, or it is said what is wrong with it. -/
theorem answers_stored? (hroom : s.HasRoom) (hs : s.Finds) {wording : Text}
    (h : wording.IsPlain) :
    (stored? wording).Leads
      (fun w s' => s' = s ∧ (shelfOf s).loadWorkflow s.settings.configKey = .ok w)
      Ending.HasAnswered s := by
  unfold Leads
  rw [exec_stored?]
  cases hfound : (shelfOf s).loadWorkflow s.settings.configKey with
  | ok w => exact ⟨rfl, rfl⟩
  | error f =>
    obtain ⟨hmessage, hkind⟩ := Shelf.fault_of_loadWorkflow hroom.free hs.path hfound
    dsimp only
    rw [if_pos (hkind (hs.shallow f hfound))]
    exact answers_say_exit (by simp [h, hmessage]) (by decide) s

/-- A plain workflow is taken for editing from a storage that can be read. -/
theorem answers_edited (hroom : s.HasRoom) (hs : s.Finds) :
    edited.Leads (fun w s' => s' = s ∧ w.IsPlain ∧ (shelfOf s).items.isOk = true)
      Ending.HasAnswered s := by
  have hwording : unreadable.IsPlain := by simp [unreadable, errorWord]
  refine (answers_stored? hroom hs hwording).bind fun w s' ⟨hs', hfound⟩ => ?_
  subst hs'
  obtain ⟨items, hitems⟩ := Shelf.exists_items_of_loadWorkflow hfound
  exact ⟨rfl, hs.isPlain_getD hfound, by rw [hitems]; rfl⟩

/-- The stored workflow is there and plain, or it is said that there is none. -/
theorem answers_stored (hroom : s.HasRoom) (hs : s.Finds) {wording : Text}
    (h : wording.IsPlain) :
    (stored wording).Leads (fun w s' => s' = s ∧ w.IsPlain) Ending.HasAnswered s := by
  refine (answers_stored? hroom hs h).bind fun found s' ⟨hs', hfound⟩ => ?_
  subst hs'
  cases found with
  | none =>
    have hline : nothingStored.IsPlain :=
      Text.isPlain_append.mpr ⟨Text.isPlain_ofString _, Text.isPlain_ofString _⟩
    dsimp only
    -- what is said is not to be computed
    generalize nothingStored = line at hline ⊢
    exact answers_say_exit hline (by decide) s'
  | some w => exact Leads.pure ⟨rfl, hs.isPlain_getD hfound⟩

/-- A plain workflow can be stored: the storage is a file in place, and its other texts are plain.
-/
structure IsReady (s : Shell) : Prop where
  /-- The key is plain. -/
  key : s.settings.configKey.IsPlain
  /-- The file is in place, and the items under the other keys are plain. -/
  items : ∃ items, Storage.InPlace s.machine.files s.settings.storageFile items ∧
    Storage.ArePlain (items.filter (·.1 ≠ s.settings.configKey))

/-- A storage that can be read is ready. -/
theorem isReady (hroom : s.HasRoom) (hs : s.Stores) (hreadable : (shelfOf s).items.isOk = true) :
    IsReady s := by
  refine ⟨hs.key, ?_⟩
  cases hitems : (shelfOf s).items with
  | ok items => exact ⟨items, ⟨hroom.directory, hs.opened, hroom.free, hitems⟩,
      hs.others items hitems⟩
  | error e =>
    rw [hitems] at hreadable
    cases hreadable

/-- Records that are written elsewhere leave a storage ready. -/
theorem IsReady.occur (h : IsReady s) (hlog : s.LogsElsewhere) (os : List Occurrence) :
    IsReady ((Job.occur os).exec s).2 := by
  obtain ⟨items, hplace, hothers⟩ := h.items
  have hentry := s.entry?_journal hplace.directory hlog os
  exact ⟨h.key, items, hplace.of_entry (s.keepsDirectories_journal os).1 hentry, hothers⟩

/-- A plain workflow is stored. -/
theorem answers_store (h : IsReady s) {w : Workflow} (hw : w.IsPlain) :
    (store w).Leads (fun _ _ => True) Ending.HasAnswered s := by
  obtain ⟨items, hplace, hothers⟩ := h.items
  obtain ⟨records, hexec⟩ := exec_store w s
  unfold Leads
  rw [hexec]
  dsimp only
  rw [shelfOf, hplace.set_isOk h.key (hw.dump none) hothers]
  trivial

/-- The stored workflow is discarded. -/
theorem answers_discardStored (h : IsReady s) :
    discardStored.Leads (fun _ _ => True) Ending.HasAnswered s := by
  obtain ⟨items, hplace, hothers⟩ := h.items
  unfold Leads
  rw [exec_discardStored, shelfOf, hplace.remove_isOk hothers]
  trivial

/-- A plain workflow is stored, and a line is said about it. -/
theorem answers_store_say (h : IsReady s) {w : Workflow} (hw : w.IsPlain) {line : Text}
    (hline : line.IsPlain) : (do store w; say line : Job Unit).Answers s :=
  (answers_store h hw).bind fun _ s' _ => answers_say hline s'

/-- The file of a path is written, and the path from the root is given back. -/
theorem answers_writeFile {path text : Text} (htext : text.IsPlain)
    (h : s.machine.files.IsWritable ((Path.ofText path).resolved ⟨true, s.machine.files.home⟩)) :
    (writeFile path text).Leads
      (fun t _ => t = ((Path.ofText path).resolved ⟨true, s.machine.files.home⟩).shown)
      Ending.HasAnswered s := by
  obtain ⟨made, hmade, hopen, hfree⟩ := h
  obtain ⟨bytes, hbytes, -⟩ := Utf8.exists_encode_decode htext
  have hdirectory := (Files.makeDirectoriesUpTo_eq_ok hmade).1
  obtain ⟨fs, hwrite⟩ := Files.exists_write_of_parent (Path.notMem_collapse _) hdirectory hopen
    hfree bytes
  unfold Leads writeFile
  simp [files, putFiles, hmade, hbytes, hwrite, Except.mapError, Except.toOption, Except.map]

end Job

/-! ## Answers of commands -/

namespace Command

variable {s : Shell}

/-- A workflow is edited: it is taken from the storage, and something is done that answers. -/
theorem answers_edited_then (hroom : s.HasRoom) (hs : s.Finds) (hstores : s.Stores)
    {next : Workflow → Job Unit} (h : ∀ w, w.IsPlain → IsReady s → (next w).Answers s) :
    (edited >>= next).Answers s :=
  (answers_edited hroom hs).bind fun w s' ⟨hs', hw, hreadable⟩ => by
    subst hs'
    exact h w hw (isReady hroom hstores hreadable)

/-- Parameters that are read from plain texts are plain. -/
theorem isPlain_of_paramsOf {texts : List Text} {params : List (Text × Json)}
    (h : paramsOf texts = .ok params) (hplain : ∀ t ∈ texts, t.IsPlain) :
    ∀ p ∈ params, p.1.IsPlain ∧ ∃ t : Text, p.2 = .text t ∧ t.IsPlain := by
  unfold paramsOf at h
  have hempty : ∀ p ∈ ([] : List (Text × Json)), p.1.IsPlain ∧
      ∃ t : Text, p.2 = .text t ∧ t.IsPlain := nofun
  generalize ([] : List (Text × Json)) = acc at h hempty
  induction texts generalizing acc with
  | nil =>
    cases h
    exact hempty
  | cons t rest ih =>
    rw [List.foldlM_cons] at h
    obtain ⟨next, hnext, hrest⟩ := exists_of_bind_eq_ok h
    obtain ⟨ht, hplain⟩ := List.forall_mem_cons.mp hplain
    split at hnext
    · next name value hcut =>
      obtain ⟨hname, hvalue⟩ := ht.cut? hcut
      cases hnext
      refine ih hplain _ hrest fun p hp => ?_
      rcases Json.mem_put hp with rfl | hp
      · exact ⟨hname.strip, value, rfl, hvalue⟩
      · exact hempty p hp
    · cases hnext

/-- Adding an action is answered. -/
theorem answers_add (hroom : s.HasRoom) (hfinds : s.Finds) (hstores : s.Stores)
    (hlog : s.LogsElsewhere) (kind : Text) {params : List Text}
    (hparams : ∀ t ∈ params, t.IsPlain) : (Job.add kind params).Answers s := by
  refine answers_edited_then hroom hfinds hstores fun w hw hready => ?_
  cases hread : paramsOf params with
  | error f => exact trivial
  | ok params =>
    cases Workflow.kindOf kind with
    | error u => exact answers_say_exit (by simp [errorWord, u.isPlain_message]) (by decide) s
    | ok kind =>
      let n := s.machine.actionIds + 1
      let a := Action.make (Action.idOf n) kind params
      have hoccur := hready.occur hlog ((Action.makeRecords kind params).map .logged)
      have hnew : (newAction kind params).Leads (fun b s' => b = a ∧ IsReady s')
          Ending.HasAnswered s := ⟨rfl, hoccur.key, hoccur.items⟩
      refine hnew.bind fun b s' ⟨hb, hready'⟩ => ?_
      subst hb
      have hid : (Action.idOf n).IsPlain := Text.isPlain_hex 32 n
      have ha : a.IsPlain := Action.isPlain_make kind hid (isPlain_of_paramsOf hread hparams)
      exact answers_store_say hready' (hw.add ha) (by simp [a.isPlain_describe, ha.1])

/-- Removing actions is answered. -/
theorem answers_remove (hroom : s.HasRoom) (hfinds : s.Finds) (hstores : s.Stores) {id : Text}
    (hid : id.IsPlain) : (Job.remove id).Answers s := by
  refine answers_edited_then hroom hfinds hstores fun w hw hready => ?_
  cases hremove : w.remove? id with
  | none => exact answers_say_exit (by simp) (by decide) s
  | some removed =>
    exact answers_store_say hready (hw.remove? hremove) (by simp [hid])

/-- Moving an action is answered. -/
theorem answers_move (hroom : s.HasRoom) (hfinds : s.Finds) (hstores : s.Stores)
    (index target : Int) {direction : Text} (hdirection : direction.IsPlain)
    {moved : Workflow → Option Workflow}
    (hmoved : ∀ w : Workflow, w.IsPlain → ∀ w' ∈ moved w, w'.IsPlain) :
    (Job.move index target direction moved).Answers s := by
  refine answers_edited_then hroom hfinds hstores fun w hw hready => ?_
  cases hmove : moved w with
  | none => exact answers_say (by simp [hdirection]) s
  | some w' => exact answers_store_say hready (hmoved w hw w' hmove) (by simp)

/-- Bringing in a workflow from a file is answered. -/
theorem answers_bringIn (hroom : s.HasRoom) (hstores : s.Stores)
    (hreadable : (shelfOf s).items.isOk = true) {path : Text} {w : Workflow}
    (hload : Workflow.load s.machine.files (.ofText path) = .ok w) (hw : w.IsPlain) :
    (Job.bringIn path).Answers s := by
  have hfound : (Job.load path).Leads (fun w' s' => w' = w ∧ s' = s) (fun _ _ => False) s := by
    unfold Leads Job.load
    simp [files, hload, Except.mapError]
  refine (hfound.tryCatch fun _ _ => False.elim).bind ?_
  rintro _ _ ⟨rfl, rfl⟩
  exact answers_store_say (isReady hroom hstores hreadable) hw (by simp)

/-- Writing the stored workflow out is answered. -/
theorem answers_writeOut (hroom : s.HasRoom) (hfinds : s.Finds) {path : Option Text}
    (hpath : ∀ t ∈ path.filter fun t => !t.isEmpty,
      s.machine.files.IsWritable ((Path.ofText t).resolved ⟨true, s.machine.files.home⟩) ∧
        ((Path.ofText t).resolved ⟨true, s.machine.files.home⟩).shown.IsPlain) :
    (Job.writeOut path).Answers s := by
  refine (answers_stored hroom hfinds (Text.isPlain_ofString "ERR ")).bind fun w s' ⟨hs', hw⟩ => ?_
  subst hs'
  have htext := hw.dump (some 2)
  cases hfile : path.filter fun t => !t.isEmpty with
  | none => exact answers_say htext s'
  | some t =>
    obtain ⟨hwritable, hshown⟩ := hpath t hfile
    refine (answers_writeFile (by simp [htext]) hwritable).bind fun shown s'' hsame => ?_
    subst hsame
    exact answers_say (by simp [hshown]) s''

/-- It is said how a command is used. -/
theorem isPlain_usage (name : Text) : (usage (spec? name)).IsPlain := by
  have hspecs : ∀ c ∈ specs, (usage (some c)).IsPlain := by decide +kernel
  unfold spec?
  cases hfind : specs.find? fun c => c.name = name with
  | none => decide +kernel
  | some c => exact hspecs c (List.mem_of_find?_eq_some hfind)

/-- **A command that can be answered is answered.** -/
theorem answers_job (hroom : s.HasRoom) {c : Command} (hc : c.IsAnswerable s) :
    c.job.Answers s := by
  cases c with
  | label t =>
    obtain ⟨hfinds, hstores, ht⟩ := hc
    exact answers_edited_then hroom hfinds hstores fun w hw hready =>
      answers_store_say hready (hw.relabel ht) (by simp)
  | add kind params => exact answers_add hroom hc.1 hc.2.1 hc.2.2.1 kind hc.2.2.2
  | remove id => exact answers_remove hroom hc.1 hc.2.1 hc.2.2
  | moveUp index =>
    exact answers_move hroom hc.1 hc.2 _ _ (by simp) fun w hw w' hw' => hw.moveUp? hw'
  | moveDown index =>
    exact answers_move hroom hc.1 hc.2 _ _ (by simp) fun w hw w' hw' => hw.moveDown? hw'
  | clear all =>
    cases all with
    | false =>
      exact answers_edited_then hroom hc.1 hc.2 fun w hw hready =>
        answers_store_say hready hw.clear (by simp)
    | true =>
      have hready := isReady hroom hc.1 hc.2
      exact (answers_discardStored hready).bind fun _ s' _ => answers_say (by simp) s'
  | load path =>
    obtain ⟨hstores, hreadable, w, hload, hw⟩ := hc
    exact answers_bringIn hroom hstores hreadable hload hw
  | save path => exact answers_writeOut hroom hc.1 hc.2
  | help name => exact answers_say (by simp [isPlain_usage]) s
  | config | types | «show» | validate | press => exact hc.elim

end Command

/-! ## Answers of processes -/

/-- What is reported about a fault in arguments is a line, or several. -/
theorem UsageFault.dropControls_report_ne_nil (c : Option CommandSpec) (f : UsageFault) :
    Text.dropControls (f.report c) ≠ [] := by
  obtain ⟨t, ht⟩ : ∃ t : Text, f.report c = t ++ "\n" := by
    unfold report
    dsimp only
    split
    · exact ⟨_, rfl⟩
    · exact ⟨_, by rw [← List.append_assoc]⟩
  rw [ht]
  exact Text.dropControls_line_ne_nil t

/-- A process has answered when its job answers. -/
theorem hasAnswered_carryOut {job : Job Unit} {s : Shell} (h : job.Answers s) :
    (carryOut job s).HasAnswered := by
  have hending := ending_carryOut job s
  have houtput := output_carryOut job s
  generalize carryOut job s = o at hending houtput ⊢
  unfold Job.Answers Job.Leads at h
  generalize job.exec s = out at h hending houtput
  obtain ⟨result, s'⟩ := out
  cases result with
  | ok _ =>
    have hcode : o.code = 0 := by
      unfold Outcome.code
      rw [hending]
    refine ⟨fun f hf => ?_, by omega, .inl (houtput ▸ h)⟩
    cases hf.symm.trans hending
  | error e =>
    replace hending : o.ending = e := hending
    cases e with
    | exit code =>
      obtain ⟨hcode, hsaid⟩ := h
      refine ⟨fun f hf => ?_, ?_, .inl (houtput ▸ hsaid)⟩
      · cases hf.symm.trans hending
      · unfold Outcome.code
        rw [hending]
        exact hcode
    | usage c f =>
      have hcode : o.code = 2 := by
        unfold Outcome.code
        rw [hending]
      refine ⟨fun f hf => ?_, by omega, .inr ?_⟩
      · cases hf.symm.trans hending
      · unfold Outcome.report
        rw [hending]
        exact f.dropControls_report_ne_nil c
    | failed f => exact h.elim

variable {m : Machine} {around : Surroundings} {args : List Text}

/-- When the settings are prepared, the directory of the storage is there. -/
theorem hasDirectory_of_prepare {settings : Settings} {fs : Files}
    (h : Settings.prepare m.files around.environment = (.ok settings, fs)) :
    fs.hasDirectory settings.storageFile.parent = true := by
  obtain ⟨made, hmade, hlogs⟩ := Settings.exists_of_prepare_eq_ok h
  have hkeeps := (Files.makeDirectoriesUpTo_growsAlong hlogs).toGrows.keepsDirectories
  exact hkeeps.hasDirectory (Files.makeDirectoriesUpTo_eq_ok hmade).1

/-- **A process answers.** Where the settings can be prepared and no directory is in the place of
the storage, a process with a command that can be answered ends with one of the exit codes 0, 1 and
2, it prints or reports something, and no failure ends it. -/
theorem run_answers (hprepare : (Settings.prepare m.files around.environment).1.isOk = true)
    (h : Carries m around args fun s c =>
      s.machine.files.hasDirectory s.settings.storageFile = false ∧ c.IsAnswerable s) :
    (run m around args).HasAnswered := by
  have hruns := runs_run m around args
  generalize run m around args = o at hruns ⊢
  cases hruns with
  | misused f => exact ⟨nofun, Nat.le_refl 2, .inr (f.dropControls_report_ne_nil none)⟩
  | helps asked =>
    have hcode : (if asked then 0 else 2) ≤ 2 := by cases asked <;> decide
    exact ⟨nofun, hcode, .inl nofun⟩
  | unprepared hfails =>
    rw [hfails] at hprepare
    cases hprepare
  | carries hread hsettings =>
    refine hasAnswered_carryOut ?_
    obtain ⟨f, hjob⟩ | ⟨c, ⟨hfree, hc⟩, hjob⟩ := h.job hread hsettings
    · rw [hjob]
      exact trivial
    · rw [hjob]
      exact Command.answers_job ⟨hasDirectory_of_prepare hsettings, hfree⟩ hc

/-- The label is to be replaced, but the file of the storage holds a list: that is said. -/
theorem run_answers_unreadable :
    let storage : Location := ["home", ".button_workflow", "local_storage.json"]
    let bytes := (Utf8.encode "[1]").toOption.getD []
    let m : Machine :=
      { files := ⟨["home"], [(["home"], .directory), (["home", ".button_workflow"], .directory),
          (storage, .file bytes)], []⟩ }
    (run m { environment := [] } ["label", "Go"]).HasAnswered ∧
      (run m { environment := [] } ["label", "Go"]).output =
        "ERR stored configuration is unreadable: Storage file " ++
          "/home/.button_workflow/local_storage.json must hold a JSON object\n" := by
  intro storage bytes m
  have hstate : Carries m { environment := [] } ["label", "Go"] fun s c => c = .label "Go" ∧
      s.machine.files.hasDirectory s.settings.storageFile = false ∧
      s.settings.storageFile.shown.IsPlain ∧
      s.machine.files.isClosed s.settings.storageFile.parent = false ∧
      s.settings.configKey.IsPlain ∧
      s.settings.label.IsPlain ∧ (shelfOf s).items.isOk = false ∧
      ((shelfOf s).loadWorkflow s.settings.configKey).mapError (·.kind) = .error .invalid := by
    decide +kernel
  refine ⟨run_answers (by decide +kernel) ?_, by decide +kernel⟩
  rintro ⟨s, c⟩ hbegun
  obtain ⟨rfl, hfree, hpath, hopen, hkey, hlabel, hunread, hfault⟩ := hstate (s, c) hbegun
  cases hfound : (shelfOf s).loadWorkflow s.settings.configKey with
  | ok w =>
    rw [hfound] at hfault
    cases hfault
  | error f =>
    rw [hfound] at hfault
    have hkind : f.kind = .invalid := by simpa [Except.mapError] using hfault
    have hnone : found? s = none := by rw [found?, hfound]; rfl
    refine ⟨hfree, ⟨hpath, fun f' hf' => ?_, ?_⟩, ⟨hopen, hkey, fun items hitems => ?_⟩,
      by decide⟩
    · cases hfound.symm.trans hf'
      rw [hkind]
      decide
    · rw [hnone]
      exact ⟨hlabel, nofun⟩
    · rw [hitems] at hunread
      cases hunread

/-- Not every process answers: one that removes the workflow as a whole fails when the file of the
storage holds a list. -/
theorem not_every_process_answers :
    ¬ ∀ (m : Machine) (around : Surroundings) (args : List Text),
      (Settings.prepare m.files around.environment).1.isOk = true →
      Carries m around args (fun s c =>
        s.machine.files.hasDirectory s.settings.storageFile = false ∧ c = .clear true) →
      (run m around args).HasAnswered := by
  intro h
  let bytes := (Utf8.encode "[1]").toOption.getD []
  let m : Machine :=
    { files := ⟨["home"], [(["home"], .directory), (["home", ".button_workflow"], .directory),
        (["home", ".button_workflow", "local_storage.json"], .file bytes)], []⟩ }
  have hanswered := h m { environment := [] } ["clear", "--all"] (by decide +kernel)
    (by decide +kernel)
  let path : Text := "/home/.button_workflow/local_storage.json"
  let f : Failure := ⟨.invalid, "Storage file " ++ path ++ " must hold a JSON object"⟩
  have hfails : (run m { environment := [] } ["clear", "--all"]).ending = .failed f := by
    decide +kernel
  exact hanswered.handled f hfails

end Cli

end PushButton
