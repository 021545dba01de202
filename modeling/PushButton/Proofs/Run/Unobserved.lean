import PushButton.Proofs.Run.Upkeep

/-!
# Runs that nobody observes

Observers see what a run does, but a run does not see them: as long as none of them fails, a run
does the same to a surface that nobody observes, with the same storage, random numbers and host. So
what comes of runs that succeed before observers can be told by making them alone.
-/

namespace PushButton

variable {σ α β : Type}

/-- A world is like one that nobody observes; they differ in nothing but the observers and in what
has happened. -/
structure World.Unobserved (w u : World σ) : Prop where
  /-- Nobody observes the other one. -/
  alone : u.listeners = []
  /-- The worlds differ in nothing else. -/
  same : ∃ ls past, w = { u with listeners := ls, past := past }

/-- A step that succeeds does the same, with the same result, where nobody observes it. -/
def Act.GoesUnobserved (act : Act σ α) : Prop :=
  ∀ (w u w' : World σ) (x : α), w.Unobserved u → act.exec w = (.ok x, w') →
    ∃ u', act.exec u = (.ok x, u') ∧ w'.Unobserved u'

namespace World

variable {w u w' : World σ}

/-- Other observers and other things that have happened make no difference. -/
theorem Unobserved.with (h : w.Unobserved u) (ls : List Listener) (past past' : List Occurrence) :
    Unobserved { w with listeners := ls, past := past } { u with past := past' } := by
  obtain ⟨halone, ls', past'', rfl⟩ := h
  exact ⟨halone, ls, past, rfl⟩

/-- The surface is the same. -/
theorem Unobserved.surface (h : w.Unobserved u) : w.surface = u.surface := by
  obtain ⟨-, ls, past, rfl⟩ := h
  rfl

/-- As much time has passed. -/
theorem Unobserved.clock (h : w.Unobserved u) : w.clock = u.clock := by
  obtain ⟨-, ls, past, rfl⟩ := h
  rfl

/-- Things happen in both. -/
theorem Unobserved.after (h : w.Unobserved u) (os : List Occurrence) :
    (w.after os).Unobserved (u.after os) := h.with _ _ _

/-- Quiet changes make no difference. -/
theorem Unobserved.quiet (h : w.Unobserved u) (hquiet : w.Quiet w') : w'.Unobserved u := by
  have hrest : w' = { w with listeners := w'.listeners, past := w'.past } := by
    rw [← hquiet.rest]
  rw [hrest]
  exact h.with w'.listeners w'.past u.past

end World

namespace Act

/-- A value. -/
theorem GoesUnobserved.pure (x : α) : GoesUnobserved (pure x : Act σ α) := by
  intro w u w' y hu hexec
  obtain ⟨hx, rfl⟩ := Prod.mk.inj hexec
  exact ⟨u, by rw [exec_pure, hx], hu⟩

/-- A failure. -/
theorem GoesUnobserved.throw (f : Failure) : GoesUnobserved (throw f : Act σ α) :=
  fun _ _ _ _ _ hexec => nomatch hexec

/-- One step after the other. -/
theorem GoesUnobserved.bind {act : Act σ α} {next : α → Act σ β} (hact : act.GoesUnobserved)
    (hnext : ∀ x, (next x).GoesUnobserved) : (act >>= next).GoesUnobserved := by
  intro w u w' y hu hexec
  rw [exec_bind] at hexec
  split at hexec
  · next x w₁ hfirst =>
    obtain ⟨u₁, hfirst', hu₁⟩ := hact w u w₁ x hu hfirst
    obtain ⟨u', hrest, hu'⟩ := hnext x w₁ u₁ w' y hu₁ hexec
    exact ⟨u', by rw [exec_bind, hfirst']; exact hrest, hu'⟩
  · cases hexec

/-- A step that depends on the world, but not on observers and on what has happened. -/
theorem GoesUnobserved.look {next : World σ → Act σ α}
    (hsame : ∀ (w : World σ) ls past, next { w with listeners := ls, past := past } = next w)
    (hnext : ∀ w, (next w).GoesUnobserved) : (get >>= next).GoesUnobserved := by
  intro w u w' x hu hexec
  obtain ⟨ls, past, hw⟩ := hu.same
  have hnext' : next w = next u := by
    rw [hw]
    exact hsame u ls past
  rw [exec_bind, exec_get] at hexec ⊢
  obtain ⟨u', hrest, hu'⟩ := hnext w w u w' x hu hexec
  exact ⟨u', by rw [← hrest, hnext'], hu'⟩

/-- A step that always succeeds and does the same to both worlds. -/
theorem GoesUnobserved.of_exec {act : Act σ α}
    (h : ∀ w u : World σ, w.Unobserved u →
      ∃ x w' u', act.exec w = (.ok x, w') ∧ act.exec u = (.ok x, u') ∧ w'.Unobserved u') :
    act.GoesUnobserved := by
  intro w u w' y hu hexec
  obtain ⟨x, w₁, u', hw₁, hu', hsame⟩ := h w u hu
  obtain ⟨hx, rfl⟩ := Prod.mk.inj (hw₁.symm.trans hexec)
  exact ⟨u', hx ▸ hu', hsame⟩

/-- Something happens. -/
theorem goesUnobserved_occur (o : Occurrence) : GoesUnobserved (occur o : Act σ Unit) :=
  .of_exec fun _ _ hu => ⟨⟨⟩, _, _, rfl, rfl, hu.after [o]⟩

/-- A record is made. -/
theorem goesUnobserved_log (level : Level) (logger message : Text) (context : Context) :
    GoesUnobserved (log level logger message context : Act σ Unit) := goesUnobserved_occur _

/-- Parts of the surface are announced, which nobody sees. The induction is on the parts. -/
theorem exec_forM_notify_alone (fields : List Field) {u : World σ} (halone : u.listeners = []) :
    (fields.forM notify).exec u = (.ok ⟨⟩, u) := by
  have hone (field : Field) : (notify field).exec u = (.ok ⟨⟩, u) := by
    unfold notify
    rw [exec_bind, exec_get]
    dsimp only
    rw [halone]
    rfl
  induction fields with
  | nil => rfl
  | cons field fields ih =>
    change (notify field >>= fun _ => fields.forM notify).exec u = _
    rw [exec_bind, hone]
    exact ih

/-- The surface is changed. -/
theorem goesUnobserved_change (c : SurfaceChange) : GoesUnobserved (c.act : Act σ Unit) := by
  intro w u w' x hu hexec
  obtain ⟨halone, ls, past, rfl⟩ := hu
  have hquiet := c.quiet_act { u with listeners := ls, past := past }
  rw [hexec] at hquiet
  refine ⟨{ u with surface := c.update u.surface }, ?_, World.Unobserved.quiet ?_ hquiet⟩
  · rw [c.exec_act]
    exact exec_forM_notify_alone c.fields halone
  · exact ⟨halone, ls, past, rfl⟩

/-- **An ordinary step does not see the observers.** The induction is on how the step is made. -/
theorem Ordinary.goesUnobserved {h : Host σ} {act : Act σ α} (hact : act.Ordinary h) :
    act.GoesUnobserved := by
  induction hact with
  | pure x => exact .pure x
  | throw f => exact .throw f
  | bind _ _ ihact ihnext => exact ihact.bind ihnext
  | look hsame _ ih => exact .look hsame ih
  | log level message context => exact goesUnobserved_log _ _ _ _
  | change c => exact goesUnobserved_change c
  | @timed _ a since act _ ih =>
    intro w u w' x hu hexec
    cases hact : act.exec w with
    | mk res w₁ =>
      rw [Action.exec_timed, hact] at hexec
      obtain ⟨hok, rfl⟩ := Prod.mk.inj hexec
      dsimp only at hok
      obtain ⟨u', hu', hsame⟩ := ih w u w₁ x hu (hok ▸ hact)
      refine ⟨_, by rw [Action.exec_timed, hu'], ?_⟩
      rw [← hsame.clock]
      exact hsame.after _
  | draw bound | store key value | ask r | settle r | abandon r =>
    refine .of_exec fun w u hu => ?_
    obtain ⟨halone, ls, past, rfl⟩ := hu
    exact ⟨_, _, _, rfl, rfl, ⟨halone, _, _, rfl⟩⟩

/-- The world is changed without regard to the observers and to what has happened. -/
theorem GoesUnobserved.modify {g : World σ → World σ}
    (hsame : ∀ (w : World σ) ls past,
      g { w with listeners := ls, past := past } = { g w with listeners := ls, past := past })
    (hlisteners : ∀ w, (g w).listeners = w.listeners) :
    GoesUnobserved (modify g : Act σ PUnit) :=
  .of_exec fun w u hu => by
    obtain ⟨halone, ls, past, rfl⟩ := hu
    exact ⟨⟨⟩, _, _, rfl, rfl, (hlisteners u).trans halone, ls, past, hsame u ls past⟩

/-- Milliseconds pass. -/
theorem goesUnobserved_sleep (ms : Nat) : GoesUnobserved (sleep ms : Act σ Unit) := by
  unfold sleep
  split
  · exact .bind (.modify (fun _ _ _ => rfl) fun _ => rfl) fun _ => goesUnobserved_occur _
  · exact .pure _

end Act

/-! ## Runs -/

namespace Run

variable (r : Run)

/-- A run begins. -/
theorem goesUnobserved_begin : (r.begin : Act σ Run).GoesUnobserved := by
  refine .bind (.modify (fun _ _ _ => rfl) fun _ => rfl) fun _ => ?_
  refine .look (fun _ _ _ => rfl) fun w => ?_
  refine (Act.goesUnobserved_log _ _ _ _).bind fun _ => ?_
  exact (Act.goesUnobserved_change .clear).bind fun _ => .pure _

/-- A run applies an action behind a waiting time. -/
theorem goesUnobserved_play (h : Host σ) (ms : Nat) (a : Action) :
    (r.play h ms a).GoesUnobserved := by
  have hannounce : (r.announce a : Act σ Unit).GoesUnobserved :=
    .bind (.modify (fun _ _ _ => rfl) fun _ => rfl) fun _ => Act.goesUnobserved_log _ _ _ _
  have hremount : (r.remount a : Act σ Unit).GoesUnobserved :=
    (Act.goesUnobserved_log _ _ _ _).bind fun _ => Act.goesUnobserved_change .remake
  refine (Act.goesUnobserved_sleep ms).bind fun _ => hannounce.bind fun _ => ?_
  refine (a.ordinary_apply h).goesUnobserved.bind fun e => ?_
  split
  · exact hremount.bind fun _ => .pure _
  · exact .pure _

/-- A run has applied all its actions. -/
theorem goesUnobserved_finish : (r.finish : Act σ (Run × Progress)).GoesUnobserved :=
  .look (fun _ _ _ => rfl) fun _ => (Act.goesUnobserved_log _ _ _ _).bind fun _ => .pure _

end Run

section Replay

variable {w u : World σ}

/-- Actions that are played without an observer lead to the same, if none of them fails. The
induction is on the actions. -/
theorem replay_unobserved {play : Nat → Action → Act σ Effect}
    (hplay : ∀ i a, (play i a).GoesUnobserved) {i : Nat} {actions : List Action} {e : Effect}
    (hu : w.Unobserved u) (hok : (replay play i actions w).result = .ok e) :
    (replay play i actions u).result = .ok e ∧
      (replay play i actions w).world.Unobserved (replay play i actions u).world := by
  induction actions generalizing i w u with
  | nil => exact ⟨hok, hu⟩
  | cons a rest ih =>
    unfold replay at hok ⊢
    cases hexec : (play i a).exec w with
    | mk res w' =>
      rw [hexec] at hok
      cases res with
      | error f => cases hok
      | ok e' =>
        obtain ⟨u', hexec', hu'⟩ := hplay i a w u w' e' hu hexec
        rw [hexec']
        cases e' with
        | reload => exact ⟨hok, hu'⟩
        | proceed => exact ih hu' hok

end Replay

namespace Run

variable {w u : World σ}

/-- The end of a run. -/
theorem unobserved_released (hu : w.Unobserved u) : w.released.Unobserved u.released := by
  obtain ⟨halone, ls, past, rfl⟩ := hu
  exact ⟨halone, ls, past, rfl⟩

/-- A run that succeeds takes the same course where nobody observes it. -/
theorem course_unobserved (h : Host σ) (ms : Nat) (r : Run) {e : Effect} (hu : w.Unobserved u)
    (hok : (r.course h ms w).result = .ok e) :
    (r.course h ms u).result = .ok e ∧
      (r.course h ms w).world.Unobserved (r.course h ms u).world := by
  unfold course at hok ⊢
  cases hbegin : r.begin.exec w with
  | mk res w' =>
    rw [hbegin] at hok
    cases res with
    | error f => cases hok
    | ok r' =>
      obtain ⟨u', hbegin', hu'⟩ := r.goesUnobserved_begin w u w' r' hu hbegin
      rw [hbegin']
      unfold remainder at hok ⊢
      obtain ⟨hok', hsame⟩ := replay_unobserved
        (fun i a => goesUnobserved_play { r' with index := i } h ms a) hu' hok
      refine ⟨hok', ?_⟩
      dsimp only [closing] at hok hok' hsame ⊢
      rw [hok, hok']
      cases e with
      | reload => exact unobserved_released hsame
      | proceed =>
        obtain ⟨u'', hfinish', hfinished⟩ := r'.goesUnobserved_finish _ _ _ _ hsame rfl
        exact unobserved_released (by rw [hfinish']; exact hfinished)

/-- **A complete run does not see the observers**: if it succeeds, it does the same where nobody
observes it. -/
theorem goesUnobserved_complete (h : Host σ) (workflow : Option Workflow) :
    (complete h workflow).GoesUnobserved := by
  intro w u w' x hu hexec
  by_cases hnothing : (ofWorkflow workflow).remaining = []
  · rw [complete_of_nothing h hnothing] at hexec ⊢
    obtain ⟨hx, rfl⟩ := Prod.mk.inj hexec
    exact ⟨_, rfl, hu.after _⟩
  · cases workflow with
    | none => exact (hnothing rfl).elim
    | some y =>
      have hpacing : u.sequencer.pacing = w.sequencer.pacing := by
        obtain ⟨-, ls, past, rfl⟩ := hu
        rfl
      rw [complete_eq_course rfl hnothing] at hexec
      obtain ⟨hok, rfl⟩ := Prod.mk.inj hexec
      cases hcourse : ((ofWorkflow (some y)).course h w.sequencer.pacing w).result with
      | error f =>
        rw [hcourse] at hok
        cases hok
      | ok e =>
        obtain ⟨hok', hsame⟩ := course_unobserved h _ _ hu hcourse
        refine ⟨_, ?_, hsame⟩
        rw [complete_eq_course hpacing hnothing, hok']
        rfl

end Run

end PushButton
