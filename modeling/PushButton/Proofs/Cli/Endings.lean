import PushButton.Proofs.Cli.Session
import PushButton.Proofs.Text.Plain

/-!
# How jobs end

A job gives a value or ends the process early. Here it is stated together what is true in the one
case and what in the other, with one law for each way in which jobs are put together. Saying a plain
text always succeeds; storing and discarding the workflow are calls of the storage.
-/

namespace PushButton

namespace Cli

/-- What a process has printed. -/
def Shell.output (s : Shell) : Text := (s.past.reverse.filterMap Occurrence.text?).flatten

/-- What is printed comes to what was printed before. -/
theorem Shell.output_printed (s : Shell) (t : Text) :
    Shell.output { s with past := .printed t :: s.past } = s.output ++ t := by
  simp [Shell.output, Occurrence.text?]

/-- Records print nothing. -/
theorem Shell.output_logged (s : Shell) (records : List Record) :
    ((Job.occur (records.map .logged)).exec s).2.output = s.output := by
  have hnone : (records.map Occurrence.logged).filterMap Occurrence.text? = [] := by
    rw [List.filterMap_map]
    exact List.filterMap_eq_nil_iff.mpr fun r _ => rfl
  simp [Shell.output, Job.occur, List.filterMap_append, hnone]

namespace Job

variable {α β : Type} {Q : α → Shell → Prop} {R : β → Shell → Prop}
  {E E' : Ending → Shell → Prop} {job : Job α} {s : Shell}

/-- From a process on, one thing is true when a job gives a value, and another one when it ends the
process early. -/
def Leads (Q : α → Shell → Prop) (E : Ending → Shell → Prop) (job : Job α) (s : Shell) : Prop :=
  match job.exec s with
  | (.ok x, s') => Q x s'
  | (.error e, s') => E e s'

/-- A value is given. -/
theorem Leads.pure {x : α} (h : Q x s) : Leads Q E (pure x) s := h

/-- One job after the other. -/
theorem Leads.bind {next : α → Job β} (hjob : job.Leads Q E s)
    (hnext : ∀ x s', Q x s' → (next x).Leads R E s') : (job >>= next).Leads R E s := by
  unfold Leads at hjob ⊢
  rw [exec_bind]
  generalize job.exec s = out at hjob
  obtain ⟨result, s'⟩ := out
  cases result with
  | ok x => exact hnext x s' hjob
  | error e => exact hjob

/-- An early end is dealt with. -/
theorem Leads.tryCatch {handle : Ending → Job α} (hjob : job.Leads Q E' s)
    (hhandle : ∀ e s', E' e s' → (handle e).Leads Q E s') : (tryCatch job handle).Leads Q E s := by
  unfold Leads at hjob ⊢
  rw [exec_tryCatch]
  generalize job.exec s = out at hjob
  obtain ⟨result, s'⟩ := out
  cases result with
  | ok x => exact hjob
  | error e => exact hhandle e s' hjob

/-- What is true of the process in both cases is true of it in the end. -/
theorem Leads.either {P : Shell → Prop} (h : job.Leads Q E s) (hQ : ∀ x s', Q x s' → P s')
    (hE : ∀ e s', E e s' → P s') : P (job.exec s).2 := by
  unfold Leads at h
  generalize job.exec s = out at h ⊢
  obtain ⟨result, s'⟩ := out
  cases result with
  | ok x => exact hQ x s' h
  | error e => exact hE e s' h

/-- A job that only speaks leads to what is true whatever has happened. -/
theorem Speaks.leads (hjob : job.Speaks) (hQ : ∀ x past, Q x { s with past := past })
    (hE : ∀ e past, E e { s with past := past }) : job.Leads Q E s := by
  obtain ⟨past, hs⟩ := hjob s
  unfold Leads
  generalize job.exec s = out at hs
  obtain ⟨result, s'⟩ := out
  obtain rfl : s' = { s with past := past } := hs
  cases result with
  | ok x => exact hQ x past
  | error e => exact hE e past

/-! ## More jobs that only speak -/

/-- A job that speaks is caught by one that speaks. -/
theorem Speaks.tryCatch {handle : Ending → Job α} (hjob : job.Speaks)
    (hhandle : ∀ e, (handle e).Speaks) : Speaks (tryCatch job handle) :=
  Respects.tryCatch (R := Utters) hjob hhandle

/-- A job that speaks for each item of a list speaks. -/
theorem Speaks.forM {items : List β} {act : β → Job PUnit} (hact : ∀ x, (act x).Speaks) :
    Speaks (items.forM act) := Respects.forM (R := Utters) hact

/-- A job that speaks for each item of a list and gives values speaks. -/
theorem Speaks.mapM {items : List β} {act : β → Job α} (hact : ∀ x, (act x).Speaks) :
    Speaks (items.mapM act) := Respects.mapM (R := Utters) hact

/-- A result says nothing. -/
theorem speaks_ofExcept (r : Except Failure α) : (ofExcept r).Speaks :=
  Respects.ofExcept (R := Utters) r

/-- The storage of a process. -/
def shelfOf (s : Shell) : Shelf := ⟨.file s.settings.storageFile, s.machine.files⟩

/-- The stored workflow is looked up; that it is invalid is said. -/
theorem exec_stored? (wording : Text) (s : Shell) : (stored? wording).exec s =
    match (shelfOf s).loadWorkflow s.settings.configKey with
    | .ok w => (.ok w, s)
    | .error f =>
      if f.kind.isInvalid then (do say (wording ++ f.message); exit 1 : Job _).exec s
      else (.error (.failed f), s) := by
  unfold stored? shelfOf
  simp only [exec_bind, exec_shelf, exec_get]
  generalize (Shelf.mk (.file s.settings.storageFile) s.machine.files).loadWorkflow
    s.settings.configKey = found
  cases found with
  | ok w => rfl
  | error f =>
    dsimp only
    split
    · rw [← exec_bind]
    · rfl

/-- The workflow that is found in the storage of a process. -/
def found? (s : Shell) : Option Workflow :=
  ((shelfOf s).loadWorkflow s.settings.configKey).toOption.join

/-- Looking up the stored workflow leaves the process as it was, unless that ends it. -/
theorem leads_stored? {E : Ending → Shell → Prop} (wording : Text) (s : Shell)
    (hE : ∀ e past, E e { s with past := past }) :
    (stored? wording).Leads (fun w s' => s' = s ∧ w = found? s) E s := by
  unfold Leads found?
  rw [exec_stored?]
  cases (shelfOf s).loadWorkflow s.settings.configKey with
  | ok w => exact ⟨rfl, rfl⟩
  | error f =>
    dsimp only
    by_cases hinvalid : f.kind.isInvalid = true
    · obtain ⟨e, past, hs⟩ := ends_say_exit (wording ++ f.message) 1 (α := Option Workflow) s
      rw [if_pos hinvalid, hs]
      exact hE e past
    · rw [if_neg hinvalid]
      exact hE _ s.past

/-- The stored workflow is looked up. -/
theorem speaks_stored? (wording : Text) : (stored? wording).Speaks := by
  intro s
  rw [exec_stored?]
  split
  · exact ⟨s.past, rfl⟩
  · split
    · exact (ends_say_exit _ _).speaks s
    · exact ⟨s.past, rfl⟩

/-- Taking the stored workflow, or a new one, for editing leaves the process as it was, unless that
ends it. -/
theorem leads_edited {E : Ending → Shell → Prop} (s : Shell)
    (hE : ∀ e past, E e { s with past := past }) :
    edited.Leads (fun w s' => s' = s ∧ w = (found? s).getD (.new s.settings.label)) E s := by
  refine (leads_stored? unreadable s hE).bind fun w s' ⟨hs, hw⟩ => ?_
  subst hs hw
  exact ⟨rfl, rfl⟩

/-- The stored workflow is looked up, or it is said that there is none. -/
theorem speaks_stored (wording : Text) : (stored wording).Speaks := by
  refine (speaks_stored? wording).bind fun found => ?_
  cases found with
  | none => exact (ends_say_exit _ _).speaks
  | some w => exact .pure w

/-- The workflow in a file is looked up. -/
theorem speaks_load (path : Text) : (load path).Speaks := by
  intro s
  have hload : (load path).exec s = ((ofExcept ((Workflow.load s.machine.files
      (.ofText path)).mapError (·.failure (.ofText path)))).exec s) := rfl
  rw [hload]
  exact speaks_ofExcept _ s

/-! ## Saying and storing -/

/-- A plain text is printed. -/
theorem exec_printText_of_isPlain {t : Text} (h : t.IsPlain) (s : Shell) :
    (printText t).exec s = (.ok ⟨⟩, { s with past := .printed t :: s.past }) := by
  obtain ⟨bytes, hencode, -⟩ := Utf8.exists_encode_decode h
  unfold printText Text.unprintable?
  rw [hencode]
  exact exec_occur_printed _ s

/-- A plain line is said. -/
theorem exec_say_of_isPlain {line : Text} (h : line.IsPlain) (s : Shell) : (say line).exec s =
    (.ok ⟨⟩, { s with past := .printed (Text.dropControls (line ++ "\n")) :: s.past }) :=
  exec_printText_of_isPlain (Text.IsPlain.dropControls (by simp [h])) s

/-- Storing a workflow puts its text into the storage, and makes records. -/
theorem exec_store (w : Workflow) (s : Shell) : ∃ records : List Record,
    (store w).exec s =
      let out := (shelfOf s).set s.settings.configKey (w.dump none)
      let stored : Shell := { s with machine := { s.machine with files := out.2.files } }
      ((out.1.mapError StorageError.failure).mapError Ending.failed,
        ((occur (records.map .logged)).exec stored).2) := by
  unfold store
  simp only [exec_bind, exec_shelf, exec_get, putFiles, exec_modify, occur, exec_ofExcept]
  unfold Shelf.saveWorkflow Shelf.setLogged shelfOf
  generalize (Shelf.mk (.file s.settings.storageFile) s.machine.files).set s.settings.configKey
    (w.dump none) = out
  obtain ⟨result, shelf⟩ := out
  cases result with
  | ok _ => exact ⟨_, rfl⟩
  | error e => exact ⟨[], rfl⟩

/-- Discarding the workflow removes its key from the storage. -/
theorem exec_discardStored (s : Shell) : discardStored.exec s =
    ((((shelfOf s).remove s.settings.configKey).1.mapError StorageError.failure).mapError
        Ending.failed,
      { s with
        machine := { s.machine with
          files := ((shelfOf s).remove s.settings.configKey).2.files } }) := by
  unfold discardStored
  simp only [exec_bind, exec_shelf, exec_get, putFiles, exec_modify, exec_ofExcept]
  rfl

end Job

/-! ## How processes end -/

/-- A process ends as its job does, and with the exit code 0 when that gives a value. -/
theorem ending_carryOut (job : Job Unit) (s : Shell) : (carryOut job s).ending =
    match (job.exec s).1 with
    | .ok () => .exit 0
    | .error e => e := rfl

/-- What has happened in a process is what has happened in its job, some records apart. -/
theorem occurrences_carryOut (job : Job Unit) (s : Shell) : (carryOut job s).occurrences =
    (job.exec s).2.past.reverse.filter (isKept (job.exec s).2.thresholds) := rfl

/-- A process with another exit code than 0 was ended early by its job. -/
theorem Job.Leads.of_code {Q : Unit → Shell → Prop} {E : Ending → Shell → Prop} {job : Job Unit}
    {s : Shell} (h : job.Leads Q E s) (hcode : (carryOut job s).code ≠ 0) :
    ∃ e, E e (job.exec s).2 := by
  unfold Outcome.code at hcode
  rw [ending_carryOut] at hcode
  unfold Job.Leads at h
  generalize job.exec s = out at h hcode ⊢
  obtain ⟨result, s'⟩ := out
  cases result with
  | ok _ => exact absurd rfl hcode
  | error e => exact ⟨e, h⟩

/-- The thresholds of the log hold back nothing that is printed. -/
theorem filterMap_text?_filter_isKept (thresholds : Thresholds) (os : List Occurrence) :
    (os.filter (isKept thresholds)).filterMap Occurrence.text? =
      os.filterMap Occurrence.text? := by
  induction os with
  | nil => rfl
  | cons o os ih =>
    rw [List.filter_cons]
    split
    · rw [List.filterMap_cons, List.filterMap_cons, ih]
    · next hdropped =>
      cases o with
      | logged r => exact ih
      | _ => exact absurd rfl hdropped

/-- What a process prints is what its job prints. -/
theorem output_carryOut (job : Job Unit) (s : Shell) :
    (carryOut job s).output = (job.exec s).2.output := by
  unfold Outcome.output Shell.output
  rw [occurrences_carryOut, filterMap_text?_filter_isKept]

/-- The ways in which a process can go. -/
inductive Runs (m : Machine) (around : Surroundings) (args : List Text) : Outcome → Prop
  /-- The arguments of the program are wrong. -/
  | misused (f : UsageFault) : Runs m around args (.nothing m (.usage none f))
  /-- It is said how the program is used. -/
  | helps (asked : Bool) : Runs m around args
      ⟨.exit (if asked then 0 else 2), m, [.printed ("Usage: " ++ usage none ++ "\n")]⟩
  /-- The settings are wrong, or their directories cannot be made. -/
  | unprepared {f : Failure} {fs : Files} :
      Settings.prepare m.files around.environment = (.error f, fs) →
      Runs m around args (.nothing { m with files := fs } (.failed f))
  /-- A command is carried out, if its arguments describe one. -/
  | carries {i : Invocation} {settings : Settings} {fs : Files} :
      Invocation.read args = .ok (.command i) →
      Settings.prepare m.files around.environment = (.ok settings, fs) →
      Runs m around args (carryOut (i.job fs) (.start m around settings fs i.level))

/-- A process goes in one of these ways. -/
theorem runs_run (m : Machine) (around : Surroundings) (args : List Text) :
    Runs m around args (run m around args) := by
  unfold run
  split
  · exact .misused _
  · exact .helps _
  · next i hread =>
    split
    · next f fs hprepare => exact .unprepared hprepare
    · next settings fs hprepare => exact .carries hread hprepare

/-- The state in which a process begins with a command, and the command, where it comes to one. -/
def begun? (m : Machine) (around : Surroundings) (args : List Text) : Option (Shell × Command) :=
  match Invocation.read args, Settings.prepare m.files around.environment with
  | .ok (.command i), (.ok settings, fs) =>
    (Arguments.read fs i.command i.arguments).toOption.map fun a =>
      (.start m around settings fs i.level, .ofArguments i.command.name a)
  | _, _ => none

/-- A process that has come to carry out a command carries out its job. -/
theorem run_of_begun? {m : Machine} {around : Surroundings} {args : List Text} {s : Shell}
    {c : Command} (h : begun? m around args = some (s, c)) :
    run m around args = carryOut c.job s := by
  unfold begun? at h
  unfold run
  split at h
  · next i settings fs hread hprepare =>
    obtain ⟨a, ha, hpair⟩ := Option.map_eq_some_iff.mp h
    obtain ⟨rfl, rfl⟩ := Prod.mk.inj hpair
    rw [hread, hprepare]
    dsimp only
    unfold Invocation.job
    cases hargs : Arguments.read fs i.command i.arguments with
    | error f => rw [hargs] at ha; cases ha
    | ok a' =>
      rw [hargs] at ha
      obtain rfl := Option.some.inj ha
      rfl
  · cases h

/-- A process begins a command with the machine's surroundings, and nothing has happened. -/
theorem around_of_begun? {m : Machine} {around : Surroundings} {args : List Text} {s : Shell}
    {c : Command} (h : begun? m around args = some (s, c)) : s.around = around ∧ s.past = [] := by
  unfold begun? at h
  split at h
  · obtain ⟨a, -, hpair⟩ := Option.map_eq_some_iff.mp h
    obtain ⟨rfl, -⟩ := Prod.mk.inj hpair
    exact ⟨rfl, rfl⟩
  · cases h

/-- If a process comes to carry out a command, it is one of some kind in the state in which the
process begins with it. -/
def Carries (m : Machine) (around : Surroundings) (args : List Text)
    (P : Shell → Command → Prop) : Prop :=
  ∀ begun ∈ begun? m around args, P begun.1 begun.2

instance (m : Machine) (around : Surroundings) (args : List Text) (P : Shell → Command → Prop)
    [∀ s, DecidablePred (P s)] : Decidable (Carries m around args P) :=
  inferInstanceAs (Decidable (∀ begun ∈ begun? m around args, P begun.1 begun.2))

/-- A process carries out a command of some kind, or reports a fault in its arguments. -/
theorem Carries.job {m : Machine} {around : Surroundings} {args : List Text}
    {P : Shell → Command → Prop} (h : Carries m around args P) {i : Invocation}
    {settings : Settings} {fs : Files} (hread : Invocation.read args = .ok (.command i))
    (hprepare : Settings.prepare m.files around.environment = (.ok settings, fs)) :
    (∃ f, i.job fs = throw (.usage (some i.command) f)) ∨
      ∃ c, P (.start m around settings fs i.level) c ∧ i.job fs = c.job := by
  unfold Carries begun? at h
  rw [hread, hprepare] at h
  dsimp only at h
  unfold Invocation.job
  cases hargs : Arguments.read fs i.command i.arguments with
  | error f => exact .inl ⟨f, rfl⟩
  | ok a =>
    rw [hargs] at h
    exact .inr ⟨_, h _ rfl, rfl⟩

end Cli

end PushButton
