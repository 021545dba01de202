import PushButton.Proofs.Cli.Journal

/-!
# Carrying out jobs

A job leads from a process to an ending and the process then. The laws here compute both for the
ways in which jobs are put together. A job that only speaks leaves everything of a process but what
has happened, however it ends, and so does a row of such jobs.
-/

namespace PushButton

namespace Cli

namespace Job

variable {α β : Type}

/-- How a job ends in a process, and the process then. -/
def exec (job : Job α) (s : Shell) : Except Ending α × Shell := StateT.run (ExceptT.run job) s

/-- A value changes nothing. -/
@[simp] theorem exec_pure (x : α) (s : Shell) : exec (pure x) s = (.ok x, s) := rfl

/-- An ending changes nothing. -/
@[simp] theorem exec_throw (e : Ending) (s : Shell) :
    exec (throw e : Job α) s = (.error e, s) := rfl

/-- The second of two jobs goes on from where the first one stops, unless the first one ends the
process. -/
@[simp] theorem exec_bind (job : Job α) (next : α → Job β) (s : Shell) :
    exec (job >>= next) s =
      match exec job s with
      | (.ok x, s') => exec (next x) s'
      | (.error e, s') => (.error e, s') := by
  unfold exec
  rw [ExceptT.run_bind, StateT.run_bind]
  obtain ⟨r, s'⟩ := StateT.run (ExceptT.run job) s
  cases r with
  | ok x => rfl
  | error e => rfl

/-- A value that comes out of two jobs in a row comes from values of both. -/
theorem exists_of_exec_bind {job : Job α} {next : α → Job β} {s s' : Shell} {y : β}
    (h : exec (job >>= next) s = (.ok y, s')) :
    ∃ x s₁, exec job s = (.ok x, s₁) ∧ exec (next x) s₁ = (.ok y, s') := by
  rw [exec_bind] at h
  split at h
  · next x s₁ hjob => exact ⟨x, s₁, hjob, h⟩
  · cases h

/-- A function of the value of a job changes nothing else. -/
@[simp] theorem exec_map (f : α → β) (job : Job α) (s : Shell) :
    exec (f <$> job) s = ((exec job s).1.map f, (exec job s).2) := by
  rw [map_eq_pure_bind, exec_bind]
  obtain ⟨r, s'⟩ := exec job s
  cases r with
  | ok x => rfl
  | error e => rfl

/-- An ending is caught in the process that it leaves. -/
@[simp] theorem exec_tryCatch (job : Job α) (handle : Ending → Job α) (s : Shell) :
    exec (tryCatch job handle) s =
      match exec job s with
      | (.ok x, s') => (.ok x, s')
      | (.error e, s') => exec (handle e) s' := by
  unfold exec
  rw [ExceptT.run_tryCatch, StateT.run_bind]
  obtain ⟨r, s'⟩ := StateT.run (ExceptT.run job) s
  cases r with
  | ok x => rfl
  | error e => rfl

/-- The process is looked at. -/
@[simp] theorem exec_get (s : Shell) : exec get s = (.ok s, s) := rfl

/-- The process is changed. -/
@[simp] theorem exec_modify (f : Shell → Shell) (s : Shell) :
    exec (modify f) s = (.ok ⟨⟩, f s) := rfl

/-- A result changes nothing. -/
@[simp] theorem exec_ofExcept (r : Except Failure α) (s : Shell) :
    exec (ofExcept r) s = (r.mapError .failed, s) := by
  cases r with
  | ok x => rfl
  | error f => rfl

/-- A value that comes out of a result is that of the result. -/
theorem of_exec_ofExcept {r : Except Failure α} {s s' : Shell} {x : α}
    (h : exec (ofExcept r) s = (.ok x, s')) : r = .ok x ∧ s' = s := by
  cases r with
  | ok x => cases h; exact ⟨rfl, rfl⟩
  | error f => cases h

/-- The storage is looked at. -/
@[simp] theorem exec_shelf (s : Shell) :
    exec shelf s = (.ok ⟨.file s.settings.storageFile, s.machine.files⟩, s) := rfl

/-! ## What jobs respect -/

/-- A relation between a process and a later one: nothing happening respects it, and one thing after
another does. -/
class Frame (R : Shell → Shell → Prop) : Prop where
  /-- A process and itself. -/
  refl (s : Shell) : R s s
  /-- A process, a later one, and one after that. -/
  trans {s s' s'' : Shell} : R s s' → R s' s'' → R s s''

/-- Something in a process stays as it is. -/
instance Frame.same {γ : Type} (f : Shell → γ) : Frame fun s s' => f s' = f s :=
  ⟨fun _ => rfl, fun h h' => h'.trans h⟩

/-- A job leads from every process to one that the relation allows, however it ends. -/
def Respects (R : Shell → Shell → Prop) (job : Job α) : Prop := ∀ s, R s (job.exec s).2

section Frame

variable {R : Shell → Shell → Prop} [Frame R]

/-- A value respects every relation. -/
theorem Respects.pure (x : α) : Respects R (pure x) := fun s => Frame.refl s

/-- An ending respects every relation. -/
theorem Respects.throw (e : Ending) : Respects R (throw e : Job α) := fun s => Frame.refl s

/-- Looking at the process respects every relation. -/
theorem Respects.get : Respects R (get : Job Shell) := fun s => Frame.refl s

/-- Two jobs respect a relation that both of them respect. -/
theorem Respects.bind {job : Job α} {next : α → Job β} (hjob : job.Respects R)
    (hnext : ∀ x, (next x).Respects R) : (job >>= next).Respects R := by
  intro s
  have hfirst := hjob s
  rw [exec_bind]
  split
  · next x s' hexec =>
    rw [hexec] at hfirst
    exact Frame.trans hfirst (hnext x s')
  · next e s' hexec =>
    rw [hexec] at hfirst
    exact hfirst

/-- A job that is caught respects a relation that it and what deals with its endings respect. -/
theorem Respects.tryCatch {job : Job α} {handle : Ending → Job α} (hjob : job.Respects R)
    (hhandle : ∀ e, (handle e).Respects R) : Respects R (tryCatch job handle) := by
  intro s
  have hfirst := hjob s
  rw [exec_tryCatch]
  split
  · next x s' hexec =>
    rw [hexec] at hfirst
    exact hfirst
  · next e s' hexec =>
    rw [hexec] at hfirst
    exact Frame.trans hfirst (hhandle e s')

/-- A job for each item of a list respects a relation that every one of them respects. -/
theorem Respects.forM {items : List β} {act : β → Job PUnit} (hact : ∀ x, (act x).Respects R) :
    Respects R (items.forM act) := by
  induction items with
  | nil => exact .pure _
  | cons x rest ih => exact (hact x).bind fun _ => ih

/-- A job for each item of a list, with its values, respects a relation that every one of them
respects. -/
theorem Respects.mapM {items : List β} {act : β → Job α} (hact : ∀ x, (act x).Respects R) :
    Respects R (items.mapM act) := by
  induction items with
  | nil => exact .pure _
  | cons x rest ih =>
    rw [List.mapM_cons]
    exact (hact x).bind fun _ => ih.bind fun _ => .pure _

/-- A result respects every relation. -/
theorem Respects.ofExcept (r : Except Failure α) : (ofExcept r).Respects R := by
  cases r with
  | ok x => exact .pure x
  | error f => exact .throw _

end Frame

/-! ## Jobs that only speak -/

/-- A job leaves everything of a process but what has happened. -/
def Speaks (job : Job α) : Prop := ∀ s, ∃ past, (job.exec s).2 = { s with past := past }

/-- A later process differs from one by what has happened. -/
def Utters (s s' : Shell) : Prop := ∃ past, s' = { s with past := past }

instance : Frame Utters where
  refl s := ⟨s.past, rfl⟩
  trans := by
    rintro s _ _ ⟨past, rfl⟩ ⟨past', rfl⟩
    exact ⟨past', rfl⟩

/-- A value says nothing. -/
theorem Speaks.pure (x : α) : Speaks (pure x) := Respects.pure (R := Utters) x

/-- An ending says nothing. -/
theorem Speaks.throw (e : Ending) : Speaks (throw e : Job α) :=
  Respects.throw (R := Utters) e

/-- A job that speaks, and then another one. -/
theorem Speaks.bind {job : Job α} {next : α → Job β} (hjob : job.Speaks)
    (hnext : ∀ x, (next x).Speaks) : (job >>= next).Speaks :=
  Respects.bind (R := Utters) hjob hnext

/-- A text that is printed comes to what has happened. -/
theorem exec_occur_printed (t : Text) (s : Shell) :
    (occur [.printed t]).exec s = (.ok ⟨⟩, { s with past := .printed t :: s.past }) := by
  rw [occur, exec_modify, s.journal_printed]
  rfl

/-- A text is printed, or it is a failure that it cannot be. -/
theorem exec_printText_eq (t : Text) (s : Shell) :
    (printText t).exec s = (.ok ⟨⟩, { s with past := .printed t :: s.past }) ∨
      ∃ f, (printText t).exec s = (.error (.failed f), s) := by
  unfold printText
  split
  · exact .inr ⟨_, rfl⟩
  · exact .inl (exec_occur_printed t s)

/-- A text that is printed changes nothing but what has happened. -/
theorem speaks_printText (t : Text) : (printText t).Speaks := by
  intro s
  obtain hprinted | ⟨f, hfails⟩ := exec_printText_eq t s
  · exact ⟨_, by rw [hprinted]⟩
  · exact ⟨s.past, by rw [hfails]⟩

/-- A line is said. -/
theorem speaks_say (line : Text) : (say line).Speaks := speaks_printText _

/-- A job ends the process, and leaves everything else of it but what has happened. -/
def Ends (job : Job α) : Prop := ∀ s, ∃ e past, job.exec s = (.error e, { s with past := past })

/-- A job that ends the process only speaks. -/
theorem Ends.speaks {job : Job α} (h : job.Ends) : job.Speaks := by
  intro s
  obtain ⟨e, past, hs⟩ := h s
  exact ⟨past, by rw [hs]⟩

/-- An ending ends the process. -/
theorem Ends.throw (e : Ending) : Ends (throw e : Job α) := fun s => ⟨e, s.past, rfl⟩

/-- A job that speaks, and then one that ends the process. -/
theorem Speaks.ends {job : Job α} {next : α → Job β} (hjob : job.Speaks)
    (hnext : ∀ x, (next x).Ends) : (job >>= next).Ends := by
  intro s
  obtain ⟨past, hs⟩ := hjob s
  rw [exec_bind]
  split
  · next x s' hx =>
    obtain rfl : s' = { s with past := past } := by rw [← hs, hx]
    exact hnext x _
  · next e s' hx =>
    obtain rfl : s' = { s with past := past } := by rw [← hs, hx]
    exact ⟨e, past, rfl⟩

/-- A line is said, and the process ends. -/
theorem ends_say_exit (line : Text) (code : Nat) : (do say line; exit code : Job α).Ends :=
  (speaks_say line).ends fun _ => .throw _

end Job

end Cli

end PushButton
