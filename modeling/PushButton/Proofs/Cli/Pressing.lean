import PushButton.Cli.Program
import PushButton.Proofs.Cli.Endings
import PushButton.Proofs.Host.Conduct
import PushButton.Proofs.Run.Unobserved

/-!
# Pressing the button repeatedly

Repeated presses are runs in a row, as many as it takes until the button is disabled or all presses
are made. Nothing else that a process does on the terminal prints what is said about presses that
are skipped, so this is printed once if presses are left and never otherwise.
-/

namespace PushButton

variable {σ α : Type}

/-! ## Texts that nobody prints -/

/-- Something that happens does not print a text. -/
def Occurrence.Omits (t : Text) (o : Occurrence) : Prop := o.text? ≠ some t

/-- How often a text is printed. -/
def timesPrinted (t : Text) (os : List Occurrence) : Nat := (os.filterMap Occurrence.text?).count t

section Printed

variable {t : Text} {os : List Occurrence}

/-- A text is printed as often as in both parts of what happens. -/
theorem timesPrinted_append (t : Text) (os os' : List Occurrence) :
    timesPrinted t (os ++ os') = timesPrinted t os + timesPrinted t os' := by
  unfold timesPrinted
  rw [List.filterMap_append, List.count_append]

/-- The order is of no importance. -/
theorem timesPrinted_reverse (t : Text) (os : List Occurrence) :
    timesPrinted t os.reverse = timesPrinted t os := by
  unfold timesPrinted
  rw [List.filterMap_reverse, List.count_reverse]

/-- A text that is never printed is printed no time. -/
theorem timesPrinted_eq_zero (hos : ∀ o ∈ os, o.Omits t) : timesPrinted t os = 0 := by
  refine List.count_eq_zero.mpr fun ht => ?_
  obtain ⟨o, ho, htext⟩ := List.mem_filterMap.mp ht
  exact hos o ho htext

/-- One thing more happens. -/
theorem timesPrinted_cons (t : Text) (o : Occurrence) (os : List Occurrence) :
    timesPrinted t (o :: os) = timesPrinted t [o] + timesPrinted t os :=
  timesPrinted_append t [o] os

end Printed

/-- An observer never prints a text. -/
def Listener.NeverPrints (t : Text) (l : Listener) : Prop :=
  ∀ field s past, t ∉ (l.react field s past).prints

/-- As long as no observer prints a text, none comes that does, and the text is not printed. -/
def World.Omits (t : Text) (w w' : World σ) : Prop :=
  (∀ l ∈ w.listeners, l.NeverPrints t) →
    (∀ l ∈ w'.listeners, l.NeverPrints t) ∧ timesPrinted t w'.past = timesPrinted t w.past

instance (t : Text) : Act.Frame (World.Omits (σ := σ) t) where
  refl _ hw := ⟨hw, rfl⟩
  trans h h' hw := by
    obtain ⟨hw', hfirst⟩ := h hw
    obtain ⟨hw'', hsecond⟩ := h' hw'
    exact ⟨hw'', hsecond.trans hfirst⟩

/-- Things that do not print the text happen. -/
theorem World.omits_of_past {t : Text} {w w' : World σ} {os : List Occurrence}
    (hlisteners : w'.listeners.Sublist w.listeners) (hpast : w'.past = os.reverse ++ w.past)
    (hos : ∀ o ∈ os, o.Omits t) : w.Omits t w' := by
  refine fun hw => ⟨fun l hl => hw l (hlisteners.subset hl), ?_⟩
  rw [hpast, timesPrinted_append, timesPrinted_reverse, timesPrinted_eq_zero hos, Nat.zero_add]

namespace Act

/-- Observers that never print a text do not print it when a part of the surface is announced. -/
theorem omits_notify (t : Text) (field : Field) :
    Respects (World.Omits t) (notify field : Act σ Unit) := by
  have htell {l : Listener} (hl : l.NeverPrints t) :
      Respects (World.Omits t) (tell field l : Act σ PUnit) := by
    intro w
    rw [exec_tell]
    refine World.omits_of_past (without_sublist _ _) rfl fun o ho => ?_
    obtain rfl | ho := List.mem_cons.mp ho
    · exact nofun
    · obtain ⟨t', ht', rfl⟩ := List.mem_map.mp ho
      exact fun htext => hl field w.surface w.past (Option.some.inj htext ▸ ht')
  intro w hw
  have hall : Respects (World.Omits t) (w.listeners.forM (tell field) : Act σ PUnit) :=
    .forM fun l hl => htell (hw l hl)
  exact hall w hw

end Act

instance (t : Text) : Upkeep (World.Omits (σ := σ) t) where
  change c w hw := SurfaceChange.respects_act (Act.omits_notify t) c w hw
  aside os _ hlisteners hpast hos := by
    refine World.omits_of_past (hlisteners ▸ .refl _) hpast fun o ho => ?_
    cases o with
    | logged | slept => exact nofun
    | notified | asked | called | printed => cases hos _ ho

instance (t : Text) {h : Host σ} [h.KeepsTo (Occurrence.Omits t)] :
    h.KeepsUp (World.Omits t) where
  ask r w := World.omits_of_past (.refl _) rfl (Host.KeepsTo.ask r w.host)
  settle r w := World.omits_of_past (.refl _) rfl (Host.KeepsTo.settle r w.host)
  abandon r w := World.omits_of_past (.refl _) rfl (Host.KeepsTo.abandon r w.host)

/-! ## Runs in a row -/

/-- A step is made a number of times in a row. -/
def Act.iterate (act : Act σ Unit) : Nat → Act σ Unit
  | 0 => pure ()
  | n + 1 => do
    act
    iterate act n

namespace Press

/-- Up to a number of presses come to so many runs in a row, which lead from one world to another:
the button is not disabled before any of the runs, and if presses are left it is disabled behind the
last one. -/
structure ComesTo (once : Act σ Unit) (times runs : Nat) (w w' : World σ) : Prop where
  /-- There are no more runs than presses. -/
  bound : runs ≤ times
  /-- The runs are made in a row. -/
  leads : (once.iterate runs).exec w = (.ok ⟨⟩, w')
  /-- No run begins on a disabled button. -/
  enabled : ∀ n < runs, ∃ v, (once.iterate n).exec w = (.ok ⟨⟩, v) ∧ v.surface.disabled = false
  /-- Presses are left only when the button is disabled. -/
  disabled : runs < times → w'.surface.disabled = true

variable {once : Act σ Unit} {times left runs : Nat} {u u' w w' : World σ}

/-- No presses come to no run. -/
theorem ComesTo.zero (once : Act σ Unit) (w : World σ) : ComesTo once 0 0 w w :=
  ⟨Nat.le_refl 0, rfl, nofun, nofun⟩

/-- Presses of a disabled button come to no run. -/
theorem ComesTo.skipped (once : Act σ Unit) (times : Nat) (hw : w.surface.disabled = true) :
    ComesTo once times 0 w w :=
  ⟨Nat.zero_le _, rfl, nofun, fun _ => hw⟩

/-- A run in front of the others. -/
theorem ComesTo.succ {v : World σ} (hw : w.surface.disabled = false)
    (hfirst : once.exec w = (.ok ⟨⟩, v)) (hrest : ComesTo once left runs v w') :
    ComesTo once (left + 1) (runs + 1) w w' := by
  have hnext (n : Nat) : (once.iterate (n + 1)).exec w = (once.iterate n).exec v := by
    change (once >>= fun _ => once.iterate n).exec w = _
    rw [Act.exec_bind, hfirst]
  refine ⟨Nat.succ_le_succ hrest.bound, (hnext runs).trans hrest.leads, fun n hn => ?_,
    fun h => hrest.disabled (Nat.lt_of_succ_lt_succ h)⟩
  cases n with
  | zero => exact ⟨w, rfl, hw⟩
  | succ n =>
    rw [hnext]
    exact hrest.enabled n (Nat.lt_of_succ_lt_succ hn)

/-- What is said in front of a press is not what is said about skipped presses. -/
theorem omits_heading (number times : Nat) :
    (Occurrence.printed (heading number times)).Omits skipped :=
  fun h => by cases congrArg (fun t => t.bind List.head?) h

/-- What a press is that succeeds: the button is disabled, which is said, or a run is made, perhaps
behind a heading, and the other presses go on from there. -/
theorem repeated_succ_eq_ok (hexec : (repeated once times (left + 1)).exec w = (.ok ⟨⟩, w')) :
    (w.surface.disabled = true ∧ w' = w.after [.printed skipped]) ∨
      (w.surface.disabled = false ∧ ∃ os v, (∀ o ∈ os, o.Omits skipped) ∧
        once.exec (w.after os) = (.ok ⟨⟩, v) ∧
        (repeated once times left).exec v = (.ok ⟨⟩, w')) := by
  have hrun (os : List Occurrence) (hos : ∀ o ∈ os, o.Omits skipped)
      (h : (once >>= fun _ => repeated once times left).exec (w.after os) = (.ok ⟨⟩, w')) :
      ∃ os v, (∀ o ∈ os, o.Omits skipped) ∧ once.exec (w.after os) = (.ok ⟨⟩, v) ∧
        (repeated once times left).exec v = (.ok ⟨⟩, w') := by
    rw [Act.exec_bind] at h
    split at h
    · next v hfirst => exact ⟨os, v, hos, hfirst, h⟩
    · cases h
  unfold repeated at hexec
  rw [Act.exec_bind, Act.exec_get] at hexec
  dsimp only at hexec
  split at hexec
  · next hoff => exact .inl ⟨hoff, (Prod.mk.inj hexec).2.symm⟩
  · next hon =>
    refine .inr ⟨by simpa using hon, ?_⟩
    split at hexec
    · refine hrun [.printed (heading (times - left) times)] ?_ hexec
      simpa using omits_heading _ _
    · exact hrun [] nofun hexec

/-- **Repeated presses that succeed come to runs in a row**, also where nobody observes them, and
what is said about skipped presses is said once if presses are left. The induction is on the presses
that are left. -/
theorem comesTo_of_repeated (honce : once.GoesUnobserved)
    (homits : Act.Respects (World.Omits skipped) once) (hu : w.Unobserved u)
    (hlisteners : ∀ l ∈ w.listeners, l.NeverPrints skipped)
    (hexec : (repeated once times left).exec w = (.ok ⟨⟩, w')) :
    ∃ runs u', ComesTo once left runs u u' ∧ w'.Unobserved u' ∧
      timesPrinted skipped w'.past =
        timesPrinted skipped w.past + if runs < left then 1 else 0 := by
  induction left generalizing w u with
  | zero =>
    obtain ⟨-, rfl⟩ := Prod.mk.inj hexec
    exact ⟨0, u, .zero once u, hu, rfl⟩
  | succ left ih =>
    have hsurface : w.surface = u.surface := hu.surface
    obtain ⟨hoff, rfl⟩ | ⟨hon, os, v, hos, hfirst, hrest⟩ := repeated_succ_eq_ok hexec
    · refine ⟨0, u, .skipped once _ (hsurface ▸ hoff), hu.with _ _ _, ?_⟩
      rw [if_pos (Nat.succ_pos left), Nat.add_comm]
      exact timesPrinted_append skipped [.printed skipped] w.past
    · have hafter : World.Unobserved (w.after os) u := hu.with _ _ _
      obtain ⟨u₁, hfirst', hu₁⟩ := honce _ u v ⟨⟩ hafter hfirst
      have hsaid : World.Omits skipped w (w.after os) := World.omits_of_past (.refl _) rfl hos
      obtain ⟨hlisteners', hpast⟩ := Act.Frame.trans hsaid (homits.of_exec hfirst) hlisteners
      obtain ⟨runs, u', hcomes, hu', hprinted⟩ := ih hu₁ hlisteners' hrest
      refine ⟨runs + 1, u', .succ (hsurface ▸ hon) hfirst' hcomes, hu', ?_⟩
      rw [hprinted, hpast]
      simp only [Nat.add_lt_add_iff_right]

end Press

/-! ## What the terminal prints -/

/-- On a console an observer prints nothing more. -/
theorem Listener.NeverPrints.onConsole {t : Text} {l : Listener} (hl : l.NeverPrints t) :
    l.onConsole.NeverPrints t := by
  intro field s past ht
  change t ∈ (l.react field s past).onConsole.prints at ht
  unfold Reaction.onConsole at ht
  split at ht
  · exact hl field s past ht
  · exact hl field s past (List.takeWhile_subset _ ht)

/-- A line of the surface is not what is said about skipped presses. -/
theorem Streaming.neverPrints_listener : listener.NeverPrints Press.skipped := by
  intro field s past ht
  cases field with
  | output =>
    obtain ⟨line, -, hline⟩ := List.mem_map.mp ht
    cases congrArg List.head? hline
  | images | scale | color | disabled => cases ht

namespace Terminal

/-- A message in a frame is not what is said about skipped presses. -/
theorem omits_alertText (message : Text) :
    (Occurrence.printed (alertText message)).Omits Press.skipped :=
  fun h => by cases congrArg (fun t => t.bind List.head?) h

/-- A question is not what is said about skipped presses, whether or not the line ends behind it. -/
theorem omits_promptText (message : Text) {ending : Text} (hending : ending = [] ∨ ending = "\n") :
    (Occurrence.printed (promptText message ++ ending)).Omits Press.skipped := by
  intro h
  have hsame : Markup.visible message ++ ": " ++ ending = Press.skipped := Option.some.inj h
  -- a question has a blank at its end, and skipped presses have none
  have hlast := congrArg (fun t : Text => t.reverse.take 2) hsame
  obtain rfl | rfl := hending
  · rw [List.append_nil, List.reverse_append] at hlast
    cases hlast
  · rw [List.reverse_append, List.reverse_append] at hlast
    cases hlast

/-- Nothing that the terminal does when it replies is what is said about skipped presses. -/
theorem omits_reply (r : Request) (terminal : Terminal) :
    ∀ o ∈ (reply r terminal).2.2, o.Omits Press.skipped := by
  have hone {o : Occurrence} (ho : o.Omits Press.skipped) :
      ∀ o' ∈ [o], o'.Omits Press.skipped := by simpa using ho
  unfold reply
  cases r with
  | alert message =>
    dsimp only
    split
    · exact hone (omits_alertText message)
    · exact hone (omits_alertText message)
  | prompt message =>
    dsimp only
    split
    · have hplain := omits_promptText message (.inl rfl)
      rw [List.append_nil] at hplain
      exact hone hplain
    · exact hone (omits_promptText message (.inr rfl))
  | reload => exact hone nofun
  | close => exact nofun

instance : Host.KeepsTo (Occurrence.Omits Press.skipped) Terminal.host :=
  ⟨omits_reply, omits_reply, nofun⟩

instance : Host.KeepsTo (Occurrence.Omits Press.skipped) Press.terminal :=
  inferInstanceAs (Host.KeepsTo _ Terminal.host.onConsole)

end Terminal

namespace Cli

/-! ## A process that presses the button -/

namespace Job

/-- The surface behind the presses is shown, and its state perhaps written to a file. -/
def present (x : Workflow) (path : Option Text) (surface : SurfaceState) : Job Unit := do
  let contents ← ofExcept ((Markup.resolve (surface.markup x.label)).mapError markupFailure)
  printText (Frame.panel SurfaceState.title contents)
  match path.filter fun t => !t.isEmpty with
  | none => pure ()
  | some path =>
    let text := Json.write { charset := .ascii, indent := some 2 } surface.snapshot
    say ("Wrote run state: " ++ (← writeFile path text))

/-- A process behind presses that have led to a world. -/
def pressed {σ : Type} (s : Shell) (w : World σ) : Shell :=
  { s with
    machine := { s.machine with
      files := s.journal w.shelf.files w.past.reverse
      draws := w.draws
      runIds := w.runIds }
    past := w.past ++ s.past }

/-- The workflow that is found is taken. -/
theorem exec_stored {s : Shell} {x : Workflow} (h : found? s = some x) (wording : Text) :
    (stored wording).exec s = (.ok x, s) := by
  unfold found? at h
  unfold stored
  rw [exec_bind, exec_stored?]
  cases hload : (shelfOf s).loadWorkflow s.settings.configKey with
  | error f => rw [hload] at h; cases h
  | ok found =>
    rw [hload] at h
    obtain rfl : found = some x := h
    rfl

/-- Presses that succeed give the surface. -/
theorem exec_pressWith {σ : Type} {host : σ} {pacing : Option Int} {act : Act σ Unit} {s : Shell}
    {w : World σ} (h : act.exec (pressWorld host pacing s) = (.ok ⟨⟩, w)) :
    (pressWith host pacing act).exec s = (.ok w.surface, pressed s w) := by
  have hact : (act.run).run (pressWorld host pacing s) = (.ok ⟨⟩, w) := h
  unfold pressWith
  rw [exec_bind, exec_get]
  dsimp only
  rw [hact]
  dsimp only
  rw [exec_bind]
  change (occur w.past.reverse >>= fun _ => pure w.surface).exec _ = _
  rw [exec_bind, occur, exec_modify]
  unfold pressed
  rw [List.reverse_reverse]
  rfl

/-- A job never prints a text. -/
def Omits (t : Text) (job : Job α) : Prop :=
  ∀ s, timesPrinted t (job.exec s).2.past = timesPrinted t s.past

/-- A text is not printed from a process to a later one. -/
def PrintsNo (t : Text) (s s' : Shell) : Prop := timesPrinted t s'.past = timesPrinted t s.past

instance (t : Text) : Frame (PrintsNo t) := .same fun s => timesPrinted t s.past

section Omits

variable {β : Type} {t : Text}

/-- A value. -/
theorem Omits.pure (x : α) : Omits t (pure x : Job α) :=
  Respects.pure (R := PrintsNo t) x

/-- An ending. -/
theorem Omits.throw (e : Ending) : Omits t (throw e : Job α) :=
  Respects.throw (R := PrintsNo t) e

/-- One job after the other. -/
theorem Omits.bind {job : Job α} {next : α → Job β} (hjob : job.Omits t)
    (hnext : ∀ x, (next x).Omits t) : (job >>= next).Omits t :=
  Respects.bind (R := PrintsNo t) hjob hnext

/-- A result. -/
theorem omits_ofExcept (r : Except Failure α) : (ofExcept r).Omits t :=
  Respects.ofExcept (R := PrintsNo t) r

/-- Another text is printed. -/
theorem omits_printText {t' : Text} (h : t' ≠ t) : (printText t').Omits t := by
  unfold printText
  split
  · exact .throw _
  · intro s
    rw [exec_occur_printed]
    change timesPrinted t (.printed t' :: s.past) = _
    have hother : (Occurrence.printed t').Omits t := fun hsame => h (Option.some.inj hsame)
    rw [timesPrinted_cons, timesPrinted_eq_zero (by simpa using hother), Nat.zero_add]

/-- A file is written. -/
theorem omits_writeFile (path text : Text) : (writeFile path text).Omits t := by
  have hfiles : files.Omits t := fun _ => rfl
  have hput (fs : Files) : (putFiles fs).Omits t := fun _ => rfl
  refine hfiles.bind fun fs => (hput _).bind fun _ => (omits_ofExcept _).bind fun _ => ?_
  refine (omits_ofExcept _).bind fun written => (hput written).bind fun _ => ?_
  exact (omits_ofExcept _).bind fun _ => .pure _

/-- Showing the surface does not say that presses are skipped. -/
theorem omits_present (x : Workflow) (path : Option Text) (surface : SurfaceState) :
    (present x path surface).Omits Press.skipped := by
  refine (omits_ofExcept _).bind fun contents => ?_
  refine (omits_printText fun h => by cases congrArg List.head? h).bind fun _ => ?_
  split
  · exact .pure _
  · refine (omits_writeFile _ _).bind fun shown => omits_printText fun h => ?_
    cases congrArg List.head? h

end Omits

/-- Presses on the terminal that succeed are followed by showing the surface. -/
theorem exec_press {s : Shell} {x : Workflow} {host : Option HostKind} {pacing : Option Int}
    {times : Nat} {w : World Terminal} (path : Option Text) (hfound : found? s = some x)
    (hhost : host.getD s.settings.host = .terminal)
    (h : (Press.onTerminal x times).exec (pressWorld { input := s.around.input } pacing s) =
      (.ok ⟨⟩, w)) :
    (press host pacing times path).exec s = (present x path w.surface).exec (pressed s w) := by
  unfold press
  rw [exec_bind, exec_stored hfound]
  dsimp only
  rw [exec_bind, exec_get]
  dsimp only
  rw [hhost]
  dsimp only
  rw [exec_bind, exec_pressWith h]
  rfl

end Job

/-- Jobs that come to the same make processes that come to the same. -/
theorem carryOut_congr {job job' : Job Unit} {s s' : Shell} (h : job.exec s = job'.exec s') :
    carryOut job s = carryOut job' s' := by
  have hcarry (job : Job Unit) (s : Shell) : carryOut job s =
      ⟨(carryOut job s).ending, (job.exec s).2.machine, (carryOut job s).occurrences⟩ := rfl
  rw [hcarry job, hcarry job', ending_carryOut, ending_carryOut, occurrences_carryOut,
    occurrences_carryOut, h]

/-- **Repeated presses are runs in a row.** A process presses the button on the terminal a number of
times, and no run fails. Then these presses come to a number of runs of the workflow that was stored
at the beginning: none begins on a disabled button, and if there are fewer runs than presses the
button is disabled behind them. Made in a row where nobody observes the surface, the runs lead to
the same surface, storage, input and random numbers as the presses, so that the process ends by
showing this surface. The files differ from those behind the runs in the log alone: the records of
the presses come to its file when the presses are over, and if no log is written the files are the
same. So the runs decide what is in the file of the storage, unless it is that of the log. That
presses are skipped is said once if there are fewer runs than presses, and never otherwise. -/
theorem run_makes_runs_in_a_row {m : Machine} {around : Surroundings} {args : List Text}
    {s : Shell} {host : Option HostKind} {pacing : Option Int} {times : Nat} {path : Option Text}
    {x : Workflow} {w : World Terminal}
    (hbegun : begun? m around args = some (s, .press host pacing times path))
    (hhost : host.getD s.settings.host = .terminal) (hfound : Job.found? s = some x)
    (hok : (Press.onTerminal x times).exec
      (Job.pressWorld { input := around.input } pacing s) = (.ok ⟨⟩, w)) :
    ∃ runs u, Press.ComesTo (Run.complete Press.terminal (some x)) times runs
        { Job.pressWorld { input := around.input } pacing s with listeners := [] } u ∧
      w = { u with listeners := w.listeners, past := w.past } ∧
      (Job.pressed s w).machine.files = s.journal u.shelf.files w.past.reverse ∧
      s.IsButForLog u.shelf.files (Job.pressed s w).machine.files ∧
      run m around args = carryOut (Job.present x path u.surface) (Job.pressed s w) ∧
      timesPrinted Press.skipped (run m around args).occurrences =
        if runs < times then 1 else 0 := by
  obtain ⟨haround, hpast⟩ := around_of_begun? hbegun
  let start : World Terminal := Job.pressWorld { input := around.input } pacing s
  have halone : start.Unobserved { start with listeners := [] } := ⟨rfl, _, _, rfl⟩
  have hlisteners : ∀ l ∈ start.listeners, l.NeverPrints Press.skipped := by
    intro l hl
    rw [List.mem_singleton.mp hl]
    exact Streaming.neverPrints_listener.onConsole
  obtain ⟨runs, u, hcomes, hu, hprinted⟩ := Press.comesTo_of_repeated
    (Run.goesUnobserved_complete Press.terminal (some x))
    (Run.upkeep_complete Press.terminal (some x)) halone hlisteners hok
  have hrun : run m around args = carryOut (Job.present x path u.surface) (Job.pressed s w) := by
    rw [run_of_begun? hbegun, ← hu.surface]
    exact carryOut_congr (Job.exec_press path hfound hhost (haround ▸ hok))
  have hsame : w = { u with listeners := w.listeners, past := w.past } := by
    obtain ⟨-, ls, past, rfl⟩ := hu
    rfl
  have hfiles : (Job.pressed s w).machine.files = s.journal u.shelf.files w.past.reverse := by
    rw [hsame]
    rfl
  refine ⟨runs, u, hcomes, hsame, hfiles, ?_, hrun, ?_⟩
  · rw [hfiles]
    exact s.isButForLog_journal _ _
  · rw [hrun, occurrences_carryOut]
    unfold timesPrinted
    rw [filterMap_text?_filter_isKept]
    change timesPrinted Press.skipped _ = _
    rw [timesPrinted_reverse, Job.omits_present x path u.surface, Job.pressed]
    dsimp only
    rw [hpast, List.append_nil, hprinted]
    exact Nat.zero_add _

/-- The stored workflow stores another text in its place and asks for a name. It is still the one
that is run at the second press, which takes the second line of the input. -/
theorem run_makes_two_runs_in_a_row :
    let x : Workflow := ⟨"Go", [⟨"a1", .setLocalStorage, some [("key", "workflowConfig"),
      ("value", "gone")]⟩, ⟨"a2", .promptAndShow, none⟩]⟩
    let stored : Json := .object [("workflowConfig", .text x.toJson.asciiLine)]
    let m : Machine :=
      { files := ⟨["home"], [(["home"], .directory), (["home", ".button_workflow"], .directory),
          (["home", ".button_workflow", "local_storage.json"],
            .file ((Utf8.encode stored.asciiLine).toOption.getD []))], []⟩ }
    let around : Surroundings := { environment := [], input := "Ada\nEve\n" }
    ∃ s u, begun? m around ["run", "--times", "2"] = some (s, .press none none 2 none) ∧
      Job.found? s = some x ∧
      Press.ComesTo (Run.complete Press.terminal (some x)) 2 2
        { Job.pressWorld { input := around.input } none s with listeners := [] } u ∧
      u.surface.output = [("Saved to localStorage: workflowConfig = gone" : Text),
        "You entered: Eve"] ∧
      u.host.input = [] ∧ (u.shelf.get? "workflowConfig").toOption = some (some ("gone" : Text)) ∧
      timesPrinted Press.skipped (run m around ["run", "--times", "2"]).occurrences = 0 := by
  intro x stored m around
  have hstate : Carries m around ["run", "--times", "2"] fun s c =>
      c = .press none none 2 none ∧ s.settings.host = .terminal ∧ Job.found? s = some x ∧
      let after := (Press.onTerminal x 2).exec (Job.pressWorld { input := around.input } none s)
      after.1 = .ok ⟨⟩ ∧
        after.2.surface.output = [("Saved to localStorage: workflowConfig = gone" : Text),
          "You entered: Eve"] ∧
        after.2.host.input = [] ∧
        (after.2.shelf.get? "workflowConfig").toOption = some (some ("gone" : Text)) := by
    decide +kernel
  have hnever :
      timesPrinted Press.skipped (run m around ["run", "--times", "2"]).occurrences = 0 := by
    decide +kernel
  obtain ⟨⟨s, c⟩, hbegun⟩ := Option.isSome_iff_exists.mp
    (by decide +kernel : (begun? m around ["run", "--times", "2"]).isSome = true)
  obtain ⟨rfl, hhost, hfound, hok, houtput, hinput, hshelf⟩ := hstate _ hbegun
  cases hexec : (Press.onTerminal x 2).exec (Job.pressWorld { input := around.input } none s) with
  | mk res w =>
    rw [hexec] at hok houtput hinput hshelf
    obtain rfl : res = .ok ⟨⟩ := hok
    obtain ⟨runs, u, hcomes, hsame, -, -, -, hprinted⟩ :=
      run_makes_runs_in_a_row hbegun hhost hfound hexec
    rw [hsame] at houtput hinput hshelf
    have hruns : runs = 2 := by
      by_contra hne
      have hfewer : runs < 2 := Nat.lt_of_le_of_ne hcomes.bound hne
      rw [hnever, if_pos hfewer] at hprinted
      cases hprinted
    subst hruns
    exact ⟨s, u, hbegun, hfound, hcomes, houtput, hinput, hshelf, hnever⟩

end Cli

end PushButton
