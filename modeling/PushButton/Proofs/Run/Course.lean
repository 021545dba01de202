import PushButton.Proofs.Run.Deeds

/-!
# The course of a run

A run that is alone begins, which takes lines and images away, and then plays its actions one after
the other: each is applied behind the same waiting time. It stops behind the first reload, for which
the surface is made anew, and at the first failure. When it is left after every action, it reports
exactly one step for each action that was applied.
-/

namespace PushButton

variable {σ : Type}

/-! ## Replaying actions -/

/-- How the end of a run is reported. -/
def Progress.ended : Except Failure Effect → Progress
  | .ok _ => .done
  | .error f => .failed f

/-- What comes of replaying actions. -/
structure Replay (σ : Type) where
  /-- The actions that were applied, with the worlds behind them. -/
  steps : List (Progress × World σ)
  /-- How it ends: behind the last action, behind a reload, or with a failure. -/
  result : Except Failure Effect
  /-- The world at the end. -/
  world : World σ

/-- The steps of a replay and its end. -/
def Replay.reports (x : Replay σ) : List (Progress × World σ) :=
  x.steps ++ [(.ended x.result, x.world)]

/-- Actions are played in order, counted from a position on, up to the first one that has reloaded
the surface and the first one that fails. -/
def replay (play : Nat → Action → Act σ Effect) : Nat → List Action → World σ → Replay σ
  | _, [], w => ⟨[], .ok .proceed, w⟩
  | i, a :: rest, w =>
    match (play i a).exec w with
    | (.error f, w') => ⟨[], .error f, w'⟩
    | (.ok .reload, w') => ⟨[(.stepped i a.id .reload, w')], .ok .reload, w'⟩
    | (.ok .proceed, w') =>
      let later := replay play (i + 1) rest w'
      { later with steps := (.stepped i a.id .proceed, w') :: later.steps }

/-- An action is played by a run, which makes records about it. -/
def Run.play (h : Host σ) (ms : Nat) (r : Run) (a : Action) : Act σ Effect := do
  Act.sleep ms
  r.announce a
  let e ← a.apply h
  if e = .reload then r.remount a
  pure e

section Lists

variable {play : Nat → Action → Act σ Effect} {i j : Nat} {actions : List Action} {w : World σ}
  {x : Progress × World σ}

/-- The steps of a replay are steps of the actions in their order. -/
theorem replay_steps (hx : (replay play i actions w).steps[j]? = some x) :
    ∃ a e, actions[j]? = some a ∧ x.1 = .stepped (i + j) a.id e := by
  induction actions generalizing i j w with
  | nil => cases hx
  | cons a rest ih =>
    unfold replay at hx
    split at hx
    · cases hx
    · cases j with
      | zero =>
        obtain rfl := Option.some.inj hx
        exact ⟨a, _, rfl, rfl⟩
      | succ j => cases hx
    · cases j with
      | zero =>
        obtain rfl := Option.some.inj hx
        exact ⟨a, _, rfl, rfl⟩
      | succ j =>
        obtain ⟨a', e, ha', hx⟩ := ih hx
        refine ⟨a', e, ha', ?_⟩
        rw [hx, Nat.add_right_comm, Nat.add_assoc]

/-- At a step of a replay the world is the one in which a replay of the actions so far ends, without
a failure. -/
theorem replay_take (hx : (replay play i actions w).steps[j]? = some x) :
    (∃ e, (replay play i (actions.take (j + 1)) w).result = .ok e) ∧
      (replay play i (actions.take (j + 1)) w).world = x.2 := by
  induction actions generalizing i j w with
  | nil => cases hx
  | cons a rest ih =>
    rw [List.take_succ_cons]
    unfold replay at hx ⊢
    split at hx
    · cases hx
    · cases j with
      | zero =>
        obtain rfl := Option.some.inj hx
        exact ⟨⟨_, rfl⟩, rfl⟩
      | succ j => cases hx
    · cases j with
      | zero =>
        obtain rfl := Option.some.inj hx
        exact ⟨⟨_, rfl⟩, rfl⟩
      | succ j => exact ih hx

/-- A replay respects what playing each action respects. -/
theorem replay_respects {R : World σ → World σ → Prop} [Act.Frame R]
    {play : Nat → Action → Act σ Effect} (hplay : ∀ i a, Act.Respects R (play i a))
    (actions : List Action) {i : Nat} {w : World σ} : R w (replay play i actions w).world := by
  induction actions generalizing i w with
  | nil => exact Act.Frame.refl w
  | cons a rest ih =>
    have hstep := hplay i a w
    rw [replay]
    generalize (play i a).exec w = out at hstep ⊢
    obtain ⟨res, u⟩ := out
    cases res with
    | error f => exact hstep
    | ok e =>
      cases e with
      | reload => exact hstep
      | proceed => exact Act.Frame.trans hstep ih

end Lists

namespace Run

variable {h : Host σ} {p : Pauses}

/-! ## One action of a run -/

/-- Applying an action leaves what is known about the runs as it is. -/
theorem sequencer_apply (a : Action) (w : World σ) :
    ((a.apply h).exec w).2.sequencer = w.sequencer := by
  obtain ⟨res, w', hstart, happly⟩ := a.exec_apply h w
  have hputs := Action.puts_start h false a w
  rw [hstart] at hputs
  rw [happly]
  exact hputs.sequencer

/-- Playing an action leaves what is known about the runs as it is, the current position apart. -/
theorem runs_play (ms : Nat) (r : Run) (a : Action) :
    Act.Respects (fun w w' : World σ =>
      { w'.sequencer with current := none } = { w.sequencer with current := none })
      (r.play h ms a) := by
  have hsame {w w' : World σ} (hw : w'.sequencer = w.sequencer) :
      { w'.sequencer with current := none } = { w.sequencer with current := none } := by rw [hw]
  refine Act.Respects.bind (fun w => ?_) fun _ => Act.Respects.bind (fun w => rfl) fun _ => ?_
  · exact hsame (Act.puts_sleep ms w).sequencer
  refine Act.Respects.bind (fun w => ?_) fun e => ?_
  · exact hsame (sequencer_apply a w)
  cases e with
  | proceed => exact Act.Respects.pure _
  | reload =>
    refine Act.Respects.bind (fun w => ?_) fun _ => Act.Respects.pure _
    exact hsame (r.follows_remount a w).sequencer

/-- Playing an action leaves the waiting time as it is. -/
theorem pacing_play (ms : Nat) (r : Run) (a : Action) :
    Act.Respects (fun w w' : World σ => w'.sequencer.pacing = w.sequencer.pacing)
      (r.play h ms a) := fun w => (congrArg Sequencer.pacing (runs_play ms r a w) :)

/-- A run that is never left while it waits plays its next action, and then goes on unless the
action has reloaded the surface. -/
theorem exec_steps_cons (hsleeps : p.sleeps = false) (hrequests : p.requests = false) (r : Run)
    (a : Action) (rest : List Action) (w : World σ) :
    (steps h p r (a :: rest)).exec w =
      match (r.play h w.sequencer.pacing a).exec w with
      | (.error f, w') => (.error f, w')
      | (.ok .reload, w') =>
        if p.steps then
          (.ok ({ r.next with phase := .reloaded }, .stepped r.index a.id .reload), w')
        else (.ok ({ r.next with phase := .ended }, .done), w')
      | (.ok .proceed, w') =>
        if p.steps then
          (.ok ({ r.next with phase := .between }, .stepped r.index a.id .proceed), w')
        else (steps h p r.next rest).exec w' := by
  obtain ⟨w₁, hsleep⟩ := exec_sleep w.sequencer.pacing w
  obtain ⟨w₂, hannounce⟩ : ∃ w₂, (r.announce a).exec w₁ = (.ok (), w₂) := ⟨_, rfl⟩
  obtain ⟨res, w', hstart, happly⟩ := a.exec_apply h w₂
  have hattempt : (attempt h false { r with phase := .pacing } a).exec w₁ =
      (res.map Begun.applied, w') := by
    change (do r.announce a; a.start h false : Act σ Begun).exec w₁ = _
    rw [Act.exec_bind, hannounce]
    exact hstart
  unfold play
  rw [steps]
  simp only [Act.exec_bind, Act.exec_get, hsleep, hsleeps, Bool.false_and, Bool.false_eq_true,
    if_false, exec_step, hrequests, hattempt, hannounce, happly]
  cases res with
  | error f => rfl
  | ok e =>
    cases e with
    | proceed =>
      unfold applied
      simp only [Except.map, reduceCtorEq, if_false, Act.exec_pure]
      split
      · rfl
      · rfl
    | reload =>
      simp only [Except.map, if_true, exec_applied_reload, Act.exec_bind]
      cases (r.remount a).exec w' with
      | mk res w'' =>
        cases res with
        | error f => rfl
        | ok _ => rfl

/-! ## The course of a run -/

/-- The world that an active run leaves when it has replayed actions: it makes a record if all of
them were applied, and it is no longer active. -/
def closing (r : Run) (x : Replay σ) : World σ :=
  match x.result with
  | .ok .proceed => (r.finish.exec x.world).2.released
  | .ok .reload | .error _ => x.world.released

/-- What comes of an active run that has actions left. -/
def remainder (h : Host σ) (ms : Nat) (r : Run) (actions : List Action) (w : World σ) : Replay σ :=
  let x := replay (fun i a => ({ r with index := i } : Run).play h ms a) r.index actions w
  { x with world := r.closing x }

/-- What comes of a run that begins. -/
def course (h : Host σ) (ms : Nat) (r : Run) (w : World σ) : Replay σ :=
  match r.begin.exec w with
  | (.error f, w') => ⟨[], .error f, w'⟩
  | (.ok r', w') => remainder h ms r' r.remaining w'

/-- What comes of a run with an action left follows from playing it. -/
theorem remainder_cons (ms : Nat) (r : Run) (a : Action) (rest : List Action) (w : World σ) :
    remainder h ms r (a :: rest) w =
      match (r.play h ms a).exec w with
      | (.error f, w') => ⟨[], .error f, w'.released⟩
      | (.ok .reload, w') => ⟨[(.stepped r.index a.id .reload, w')], .ok .reload, w'.released⟩
      | (.ok .proceed, w') =>
        let later := remainder h ms r.next rest w'
        { later with steps := (.stepped r.index a.id .proceed, w') :: later.steps } := by
  have hplay : ({ r with index := r.index } : Run).play h ms a = r.play h ms a := rfl
  unfold remainder
  rw [replay, hplay]
  cases (r.play h ms a).exec w with
  | mk res w' =>
    cases res with
    | error f => rfl
    | ok e =>
      cases e with
      | reload => rfl
      | proceed => rfl

/-- An active run that is never left takes its course. The induction is on the actions that are
left. -/
theorem outcome_steps (actions : List Action) {ms : Nat} {r r₀ : Run} {w : World σ}
    (hms : w.sequencer.pacing = ms) :
    ∃ r', outcome r₀ ((steps h {} r actions).exec w) =
      ((r', .ended (remainder h ms r actions w).result), (remainder h ms r actions w).world) := by
  induction actions generalizing r w with
  | nil => exact ⟨{ r with phase := .ended }, rfl⟩
  | cons a rest ih =>
    have hpacing := pacing_play (h := h) ms r a w
    rw [exec_steps_cons rfl rfl, hms, remainder_cons]
    generalize (r.play h ms a).exec w = out at hpacing ⊢
    obtain ⟨res, w'⟩ := out
    cases res with
    | error f => exact ⟨_, rfl⟩
    | ok e =>
      cases e with
      | reload => exact ⟨_, rfl⟩
      | proceed => exact ih (hpacing.trans hms)

/-- Beginning a run leaves the waiting time as it is. -/
theorem pacing_begin (r : Run) (w : World σ) :
    (r.begin.exec w).2.sequencer.pacing = w.sequencer.pacing := by
  rw [(r.follows_begin w).sequencer]
  rfl

/-- A run that is never left takes its course. -/
theorem run_advance_eq_course {r : Run} {ms : Nat} {w : World σ} (hms : w.sequencer.pacing = ms)
    (hph : r.phase = .fresh) (hrem : r.remaining ≠ []) :
    ∃ r', (advance h {} r).run w =
      ((r', .ended (r.course h ms w).result), (r.course h ms w).world) := by
  have hpacing := r.pacing_begin w
  rw [run_advance_fresh hph hrem]
  unfold course
  generalize r.begin.exec w = out at hpacing ⊢
  obtain ⟨res, w'⟩ := out
  cases res with
  | error f => exact ⟨_, rfl⟩
  | ok r' => exact outcome_steps r.remaining (hpacing.trans hms)

/-- A complete run has the result of the run, and fails when it has failed. -/
theorem exec_complete (h : Host σ) (workflow : Option Workflow) (w : World σ) :
    (complete h workflow).exec w =
      match (advance h {} (ofWorkflow workflow)).run w with
      | ((_, .failed f), w') => (.error f, w')
      | (_, w') => (.ok (), w') := by
  have hlift : Act.exec (liftM (advance h {} (ofWorkflow workflow))) w =
      (.ok ((advance h {} (ofWorkflow workflow)).run w).1,
        ((advance h {} (ofWorkflow workflow)).run w).2) := rfl
  unfold complete
  rw [Act.exec_bind, hlift]
  obtain ⟨⟨r, progress⟩, w'⟩ := (advance h {} (ofWorkflow workflow)).run w
  cases progress with
  | failed f => rfl
  | sleeping ms | asking q | stepped i id e | done => rfl

/-- A complete run of a workflow with something to do takes its course. -/
theorem complete_eq_course {x : Workflow} {ms : Nat} {w : World σ} (hms : w.sequencer.pacing = ms)
    (hactions : x.actions ≠ []) :
    (complete h (some x)).exec w =
      (((ofWorkflow (some x)).course h ms w).result.map fun _ => (),
        ((ofWorkflow (some x)).course h ms w).world) := by
  obtain ⟨r', hrun⟩ :=
    run_advance_eq_course (h := h) (r := ofWorkflow (some x)) hms rfl hactions
  rw [exec_complete, hrun]
  cases ((ofWorkflow (some x)).course h ms w).result with
  | ok e => rfl
  | error f => rfl

/-- The record of a run that has nothing to do. -/
def idleRecord : Record :=
  { level := .debug, logger := logger
    message := "Nothing to run (no configuration or no actions)" }

/-- Without anything to do, a run makes a record and nothing else. -/
theorem complete_of_nothing (h : Host σ) {workflow : Option Workflow}
    (hnothing : (ofWorkflow workflow).remaining = []) (w : World σ) :
    (complete h workflow).exec w = (.ok (), w.after [.logged idleRecord]) := by
  rw [exec_complete, run_advance_idle (phase_ofWorkflow workflow) hnothing]
  rfl

/-! ## A run that is left after every action -/

/-- Goes on with a run only when it was left behind an action. -/
def followUp (next : Run → World σ → List (Progress × World σ)) :
    (Run × Progress) × World σ → List (Progress × World σ)
  | ((r, .stepped i id e), w) => (.stepped i id e, w) :: next r w
  | ((_, progress), w) => [(progress, w)]

/-- What a run reports, so many times at most, when it goes on again and again and is left after
every action. -/
def iterate (h : Host σ) : Nat → Run → World σ → List (Progress × World σ)
  | 0, _, _ => []
  | n + 1, r, w => followUp (iterate h n) ((r.advance h { steps := true }).run w)

/-- What a run of a workflow reports until it ends, when it is left after every action. -/
def reportsOf (h : Host σ) (workflow : Option Workflow) (w : World σ) :
    List (Progress × World σ) :=
  iterate h ((ofWorkflow workflow).remaining.length + 1) (ofWorkflow workflow) w

/-- An active run that is left after every action reports its course. The induction is on the
actions that are left. -/
theorem followUp_steps (actions : List Action) {n ms : Nat} {r r₀ : Run} {w : World σ}
    (hms : w.sequencer.pacing = ms) (hrem : r.remaining = actions) (hn : actions.length ≤ n) :
    followUp (iterate h n) (outcome r₀ ((steps h { steps := true } r actions).exec w)) =
      (remainder h ms r actions w).reports := by
  induction actions generalizing n r r₀ w with
  | nil => rfl
  | cons a rest ih =>
    obtain ⟨m, rfl⟩ : ∃ m, n = m + 1 := ⟨n - 1, by rw [List.length_cons] at hn; omega⟩
    have hlength : rest.length ≤ m := by
      rw [List.length_cons] at hn
      omega
    have hpacing := pacing_play (h := h) ms r a w
    rw [exec_steps_cons rfl rfl, hms, remainder_cons]
    generalize (r.play h ms a).exec w = out at hpacing ⊢
    obtain ⟨res, w'⟩ := out
    cases res with
    | error f => rfl
    | ok e =>
      cases e with
      | reload =>
        have hlast : iterate h (m + 1) { r.next with phase := .reloaded } w' =
            [(.done, w'.released)] := by
          rw [iterate, run_advance_reloaded rfl]
          rfl
        exact congrArg (List.cons _) hlast
      | proceed =>
        have hlater : iterate h (m + 1) { r.next with phase := .between } w' =
            (remainder h ms r.next rest w').reports := by
          rw [iterate, run_advance_between rfl, next_remaining hrem]
          exact ih (r := { r.next with phase := .between }) (hpacing.trans hms)
            (next_remaining hrem) hlength
        exact congrArg (List.cons _) hlater

/-- A run that is left after every action reports its course. -/
theorem iterate_eq_course {r : Run} {n ms : Nat} {w : World σ} (hms : w.sequencer.pacing = ms)
    (hph : r.phase = .fresh) (hrem : r.remaining ≠ []) (hn : r.remaining.length ≤ n) :
    iterate h (n + 1) r w = (r.course h ms w).reports := by
  have hpacing := r.pacing_begin w
  rw [iterate, run_advance_fresh hph hrem]
  unfold course
  cases hbegin : r.begin.exec w with
  | mk res w' =>
    rw [hbegin] at hpacing
    cases res with
    | error f => rfl
    | ok r' =>
      obtain ⟨id, since, rfl⟩ := begin_eq hbegin
      exact followUp_steps (r := { r with id := id, since := since }) r.remaining
        (hpacing.trans hms) rfl hn

/-- The steps of the course of a run that has done nothing yet are steps of its actions in order. -/
theorem course_steps {ms j : Nat} {r : Run} (hindex : r.index = 0) {w : World σ}
    {x : Progress × World σ} (hx : (r.course h ms w).steps[j]? = some x) :
    ∃ a e, r.remaining[j]? = some a ∧ x.1 = .stepped j a.id e := by
  unfold course at hx
  cases hbegin : r.begin.exec w with
  | mk res w' =>
    rw [hbegin] at hx
    cases res with
    | error f => cases hx
    | ok r' =>
      obtain ⟨id, since, rfl⟩ := begin_eq hbegin
      obtain ⟨a, e, ha, hstep⟩ := replay_steps hx
      refine ⟨a, e, ha, ?_⟩
      rw [hstep, hindex, Nat.zero_add]

end Run

end PushButton
