import PushButton.Proofs.Run.Output
import PushButton.Run.Traffic

/-!
# The moves of a run

Between two places where a run may be left it makes a row of moves: it begins, it waits, it takes up
an action and applies it, it ends. Each move does a few deeds, which say what the move means for the
runs and for the output. Whatever is done with a run, it makes moves.
-/

namespace PushButton

/-- How a run that has begun ends. -/
inductive Ending where
  /-- All its actions were applied. -/
  | finished
  /-- The surface was reloaded. -/
  | reloaded
  /-- An action or an observer failed. -/
  | failed
  /-- It was cancelled where it waited. -/
  | cancelled
  /-- It was closed between two actions. -/
  | closed
deriving DecidableEq, Repr

/-- What a run does. -/
inductive Deed where
  /-- It begins, which takes lines and images away. -/
  | began
  /-- It takes up the action at a position. -/
  | reached (index : Nat)
  /-- Lines and images are put out. -/
  | put (lines images : List Text)
  /-- The action at a position was applied. -/
  | applied (index : Nat) (a : Action)
  /-- The surface is made anew, which takes lines and images away. -/
  | remade
  /-- It ends. -/
  | left (e : Ending)
deriving DecidableEq, Repr

namespace Phase

/-- The phase of a run that has taken up an action or waits in front of one. -/
def isInside : Phase → Bool
  | .pacing | .asking _ _ => true
  | _ => false

end Phase

/-- The world after an active run has ended. -/
def World.released {σ : Type} (w : World σ) : World σ :=
  { w with sequencer := Run.release w.sequencer }

namespace Run

variable {σ : Type}

/-- A run that has just been started is fresh. -/
theorem phase_ofWorkflow (workflow : Option Workflow) : (ofWorkflow workflow).phase = .fresh := by
  cases workflow with
  | none => rfl
  | some w => rfl

/-- A run starts with the first action. -/
theorem index_ofWorkflow (workflow : Option Workflow) : (ofWorkflow workflow).index = 0 := by
  cases workflow with
  | none => rfl
  | some w => rfl

/-- A run starts with all actions of its workflow. -/
theorem remaining_ofWorkflow (workflow : Option Workflow) :
    (ofWorkflow workflow).remaining = (workflow.map Workflow.actions).getD [] := by
  cases workflow with
  | none => rfl
  | some w => rfl

/-- An action is taken up. -/
def announce (r : Run) (a : Action) : Act σ Unit := do
  modify fun w => { w with sequencer := { w.sequencer with current := some r.index } }
  log (r.stepContext a)
    ("Step " ++ Text.ofNat (r.index + 1) ++ "/" ++ Text.ofNat r.total ++ ": " ++ a.describe)

/-- The next action is taken up and begun, or its request is settled. -/
def attempt (h : Host σ) (mayWait : Bool) (r : Run) (a : Action) : Act σ Begun :=
  match r.phase with
  | .asking q since => do pure (.applied (← a.settle h q since))
  | _ => do
    announce r a
    a.start h mayWait

/-- The deeds of an attempt in a world. -/
def attemptDeeds (h : Host σ) (mayWait : Bool) (r : Run) (a : Action) (w : World σ) : List Deed :=
  match r.phase with
  | .asking q _ => [.put (a.lines w.shelf (some (h.settle q w.host).1)) []]
  | _ => [.reached r.index, .put (a.lines w.shelf (a.reply? h mayWait w.host)) a.images]

/-- The surface is made anew because an action has reloaded it. -/
def remount (r : Run) (a : Action) : Act σ Unit := do
  log (r.stepContext a) "Surface reloaded, run ends here"
  Act.remake

end Run

/-- One move of a run: the world and the run before it, its deeds, and the world and the run behind
it. A run that ends is not looked at any more, so nothing but its phase matters then. -/
inductive Move {σ : Type} (h : Host σ) : World σ × Run → List Deed → World σ × Run → Prop
  /-- There is nothing to run. -/
  | idles {w : World σ} {r : Run} : r.phase = .fresh → r.remaining = [] →
      Move h (w, r) [] (((Act.log .debug Run.logger
        "Nothing to run (no configuration or no actions)").exec w).2, { r with phase := .ended })
  /-- A run is given up before it has begun. -/
  | drops {w : World σ} {r : Run} : r.phase = .fresh →
      Move h (w, r) [] (w, { r with phase := .ended })
  /-- A run begins. -/
  | begins {w w' : World σ} {r r' : Run} : r.phase = .fresh → r.remaining ≠ [] →
      r.begin.exec w = (.ok r', w') → Move h (w, r) [.began] (w', { r' with phase := .between })
  /-- An observer fails when a run begins. -/
  | beginFails {w w' : World σ} {r : Run} {f : Failure} : r.phase = .fresh → r.remaining ≠ [] →
      r.begin.exec w = (.error f, w') → Move h (w, r) [.began] (w', { r with phase := .ended })
  /-- A run waits in front of its next action. -/
  | waits {w w' : World σ} {r : Run} : r.phase = .between → r.remaining ≠ [] →
      (Act.sleep w.sequencer.pacing).exec w = (.ok (), w') →
      Move h (w, r) [] (w', { r with phase := .pacing })
  /-- The action is begun and waits for the host. -/
  | asks {w w' : World σ} {r : Run} {a : Action} {rest : List Action} {mayWait : Bool} {q : Request}
      {since : Nat} : r.phase.isInside = true → r.remaining = a :: rest →
      (r.attempt h mayWait a).exec w = (.ok (.waiting q since), w') →
      Move h (w, r) (r.attemptDeeds h mayWait a w) (w', { r with phase := .asking q since })
  /-- The action is applied, and the run goes on. -/
  | proceeds {w w' : World σ} {r : Run} {a : Action} {rest : List Action} {mayWait : Bool} :
      r.phase.isInside = true → r.remaining = a :: rest →
      (r.attempt h mayWait a).exec w = (.ok (.applied .proceed), w') →
      Move h (w, r) (r.attemptDeeds h mayWait a w ++ [.applied r.index a])
        (w', { r.next with phase := .between })
  /-- The action is applied and has reloaded the surface. -/
  | reloads {w w' w'' : World σ} {r : Run} {a : Action} {rest : List Action} {mayWait : Bool} :
      r.phase.isInside = true → r.remaining = a :: rest →
      (r.attempt h mayWait a).exec w = (.ok (.applied .reload), w') →
      (r.remount a).exec w' = (.ok (), w'') →
      Move h (w, r) (r.attemptDeeds h mayWait a w ++ [.applied r.index a, .remade])
        (w'', { r.next with phase := .reloaded })
  /-- The action is applied and has reloaded the surface, and an observer fails. -/
  | reloadFails {w w' w'' : World σ} {r r' : Run} {a : Action} {rest : List Action}
      {mayWait : Bool} {f : Failure} : r.phase.isInside = true → r.remaining = a :: rest →
      (r.attempt h mayWait a).exec w = (.ok (.applied .reload), w') →
      (r.remount a).exec w' = (.error f, w'') → r'.phase = .ended →
      Move h (w, r) (r.attemptDeeds h mayWait a w ++ [.applied r.index a, .remade, .left .failed])
        (w''.released, r')
  /-- The action fails. -/
  | fails {w w' : World σ} {r r' : Run} {a : Action} {rest : List Action} {mayWait : Bool}
      {f : Failure} : r.phase.isInside = true → r.remaining = a :: rest →
      (r.attempt h mayWait a).exec w = (.error f, w') → r'.phase = .ended →
      Move h (w, r) (r.attemptDeeds h mayWait a w ++ [.left .failed]) (w'.released, r')
  /-- All actions are applied. -/
  | finishes {w w' : World σ} {r r' : Run} {out : Run × Progress} : r.phase = .between →
      r.remaining = [] → r.finish.exec w = (.ok out, w') → r'.phase = .ended →
      Move h (w, r) [.left .finished] (w'.released, r')
  /-- The run ends because the surface was reloaded. -/
  | ends {w : World σ} {r r' : Run} : r.phase = .reloaded → r'.phase = .ended →
      Move h (w, r) [.left .reloaded] (w.released, r')
  /-- The run is cancelled in front of an action. -/
  | cancelsPacing {w : World σ} {r r' : Run} : r.phase = .pacing → r'.phase = .ended →
      Move h (w, r) [.left .cancelled] (w.released, r')
  /-- The run is cancelled inside an action. -/
  | cancelsAsking {w : World σ} {r r' : Run} {a : Action} {rest : List Action} {q : Request}
      {since : Nat} : r.phase = .asking q since → r.remaining = a :: rest → r'.phase = .ended →
      Move h (w, r) [.left .cancelled] (((a.timed since (Act.abandon h q)).exec w).2.released, r')
  /-- The run is closed between two actions. -/
  | closes {w : World σ} {r r' : Run} : r.phase = .between ∨ r.phase = .reloaded →
      r'.phase = .ended → Move h (w, r) [.left .closed] (w.released, r')

/-- A row of moves of a run, with their deeds in order. -/
inductive Moves {σ : Type} (h : Host σ) : World σ × Run → List Deed → World σ × Run → Prop
  /-- No move. -/
  | none (x : World σ × Run) : Moves h x [] x
  /-- A move and more of them. -/
  | cons {x y z : World σ × Run} {ds ds' : List Deed} :
      Move h x ds y → Moves h y ds' z → Moves h x (ds ++ ds') z

namespace Run

variable {σ : Type} {h : Host σ} {p : Pauses}

/-- The outcome of a part of a run is reached by moves, and the run is done there only if it has
finished or has ended because of a reload. -/
def IsReached (h : Host σ) (w : World σ) (r : Run) (out : (Run × Progress) × World σ) : Prop :=
  ∃ ds, Moves h (w, r) ds (out.2, out.1.1) ∧
    (out.1.2 = .done → .left .finished ∈ ds ∨ .left .reloaded ∈ ds)

/-- A move in front of what is reached by moves. -/
theorem IsReached.cons {w w' : World σ} {r r' : Run} {out : (Run × Progress) × World σ}
    {ds : List Deed} (hmove : Move h (w, r) ds (w', r')) (h' : IsReached h w' r' out) :
    IsReached h w r out := by
  obtain ⟨ds', hmoves, hdone⟩ := h'
  refine ⟨ds ++ ds', .cons hmove hmoves, fun hprogress => ?_⟩
  exact (hdone hprogress).imp (List.mem_append_right ds) (List.mem_append_right ds)

/-- A single move. -/
theorem IsReached.single {w : World σ} {r : Run} {out : (Run × Progress) × World σ}
    {ds : List Deed} (hmove : Move h (w, r) ds (out.2, out.1.1))
    (hdone : out.1.2 = .done → .left .finished ∈ ds ∨ .left .reloaded ∈ ds) :
    IsReached h w r out := by
  refine ⟨ds ++ [], .cons hmove (.none _), fun hprogress => ?_⟩
  rw [List.append_nil]
  exact hdone hprogress

/-- The outcome of a part of an active run, which releases the run when it ends or fails. -/
def outcome (r₀ : Run) : Except Failure (Run × Progress) × World σ → (Run × Progress) × World σ
  | (.ok (r, progress), w) => ((r, progress), if r.phase = .ended then w.released else w)
  | (.error f, w) => (({ r₀ with phase := .ended }, .failed f), w.released)

/-- A part of an active run has that outcome. -/
theorem run_within (r₀ : Run) (act : Act σ (Run × Progress)) (w : World σ) :
    (within r₀ act).run w = outcome r₀ (act.exec w) := by
  unfold within Act.exec
  rw [StateT.run_bind]
  obtain ⟨res, w'⟩ := StateT.run (ExceptT.run act) w
  cases res with
  | ok x =>
    obtain ⟨r, progress⟩ := x
    rw [outcome]
    change StateT.run (if r.phase = .ended then _ else _) w' = _
    by_cases hended : r.phase = .ended
    · rw [if_pos hended, if_pos hended]
      rfl
    · rw [if_neg hended, if_neg hended]
      rfl
  | error f => rfl

/-- A waiting time never fails. -/
theorem exec_sleep (ms : Nat) (w : World σ) : ∃ w', (Act.sleep ms).exec w = (.ok (), w') := by
  unfold Act.sleep
  split
  · exact ⟨_, rfl⟩
  · exact ⟨_, rfl⟩

/-- What follows a reload follows the new surface. -/
theorem exec_applied_reload (r : Run) (a : Action) (onward : Act σ (Run × Progress))
    (w : World σ) : (applied p r a .reload onward).exec w =
      match (r.remount a).exec w with
      | (.ok _, w') =>
        if p.steps then
          (.ok ({ r.next with phase := .reloaded }, .stepped r.index a.id .reload), w')
        else (.ok ({ r.next with phase := .ended }, .done), w')
      | (.error f, w') => (.error f, w') := by
  unfold applied remount
  simp only [Act.exec_bind]
  generalize (log (r.stepContext a) "Surface reloaded, run ends here").exec w = out
  obtain ⟨res, w'⟩ := out
  cases res with
  | error f => rfl
  | ok u =>
    dsimp only
    generalize Act.remake.exec w' = out
    obtain ⟨res, w''⟩ := out
    cases res with
    | error f => rfl
    | ok u =>
      dsimp only
      split
      · rfl
      · rfl

/-- Behind an attempt that has applied an action, the run reaches its next place by moves, if it
does so behind the action. -/
theorem isReached_applied {ph : Phase} (hph : ph.isInside = true) {w w' : World σ} {r r₀ : Run}
    {a : Action} {rest : List Action} {mayWait : Bool} {e : Effect}
    {onward : Act σ (Run × Progress)} (hrem : r.remaining = a :: rest)
    (hattempt : (attempt h mayWait { r with phase := ph } a).exec w = (.ok (.applied e), w'))
    (honward : ∀ w, IsReached h w { r.next with phase := .between } (outcome r₀ (onward.exec w))) :
    IsReached h w { r with phase := ph } (outcome r₀ ((applied p r a e onward).exec w')) := by
  cases e with
  | reload =>
    rw [exec_applied_reload]
    cases hremount : (r.remount a).exec w' with
    | mk res w'' =>
      cases res with
      | error f =>
        exact .single
          (.reloadFails (r := { r with phase := ph }) hph hrem hattempt hremount rfl) nofun
      | ok u =>
        have hmove := Move.reloads (r := { r with phase := ph }) hph hrem hattempt hremount
        dsimp only
        split
        · exact .single hmove nofun
        · exact .cons hmove (.single (.ends rfl rfl) fun _ => .inr (by simp))
  | proceed =>
    have hmove := Move.proceeds (r := { r with phase := ph }) hph hrem hattempt
    unfold applied
    dsimp only
    split
    · exact .single hmove nofun
    · exact .cons hmove (honward w')

/-- A step is an attempt at its action, and what follows. -/
theorem exec_step (r : Run) (a : Action) (onward : Act σ (Run × Progress)) (w : World σ) :
    (step h p r a onward).exec w =
      match (attempt h p.requests { r with phase := .pacing } a).exec w with
      | (.ok (.waiting q since), w') => (.ok ({ r with phase := .asking q since }, .asking q), w')
      | (.ok (.applied e), w') => (applied p r a e onward).exec w'
      | (.error f, w') => (.error f, w') := by
  have hcontext : ({ r with phase := .pacing } : Run).stepContext a = r.stepContext a := rfl
  unfold step attempt announce log
  simp only [Act.exec_bind, Act.exec_modify, Act.exec_log, hcontext]
  generalize (a.start h p.requests).exec _ = out
  obtain ⟨res, w'⟩ := out
  cases res with
  | error f => rfl
  | ok b =>
    cases b with
    | waiting q since => rfl
    | applied e => rfl

/-- An attempt at an action that asks the host settles its request. -/
theorem exec_attempt_asking {r : Run} {q : Request} {since : Nat} (hph : r.phase = .asking q since)
    (mayWait : Bool) (a : Action) (w : World σ) :
    (attempt h mayWait r a).exec w =
      (((a.settle h q since).exec w).1.map .applied, ((a.settle h q since).exec w).2) := by
  unfold attempt
  rw [hph]
  dsimp only
  rw [Act.exec_bind]
  obtain ⟨res, w'⟩ := (a.settle h q since).exec w
  cases res with
  | error f => rfl
  | ok e => rfl

/-- A run that waits in front of an action reaches its next place by moves, if it does so behind the
action. -/
theorem isReached_step {w : World σ} {r r₀ : Run} {a : Action} {rest : List Action}
    {onward : Act σ (Run × Progress)} (hrem : r.remaining = a :: rest)
    (honward : ∀ w, IsReached h w { r.next with phase := .between } (outcome r₀ (onward.exec w))) :
    IsReached h w { r with phase := .pacing } (outcome r₀ ((step h p r a onward).exec w)) := by
  rw [exec_step]
  cases hattempt : (attempt h p.requests { r with phase := .pacing } a).exec w with
  | mk res w' =>
    cases res with
    | error f => exact .single (.fails rfl hrem hattempt rfl) nofun
    | ok b =>
      cases b with
      | waiting q since => exact .single (.asks rfl hrem hattempt) nofun
      | applied e => exact isReached_applied rfl hrem hattempt honward

/-- Behind an action, the actions after it are left. -/
theorem next_remaining {r : Run} {a : Action} {rest : List Action}
    (hrem : r.remaining = a :: rest) :
    r.next.remaining = rest := by
  unfold next
  rw [hrem]
  rfl

/-- A run between two actions reaches its next place by moves. The induction is on the actions that
are left. -/
theorem isReached_steps {r₀ : Run} (actions : List Action) {w : World σ} {r : Run}
    (hrem : r.remaining = actions) :
    IsReached h w { r with phase := .between } (outcome r₀ ((steps h p r actions).exec w)) := by
  induction actions generalizing w r with
  | nil => exact .single (.finishes rfl hrem rfl rfl) fun _ => .inl (by simp)
  | cons a rest ih =>
    have hne : r.remaining ≠ [] := by simp [hrem]
    obtain ⟨w', hsleep⟩ := exec_sleep w.sequencer.pacing w
    have hwaits : Move h (w, { r with phase := .between }) [] (w', { r with phase := .pacing }) :=
      .waits rfl hne hsleep
    unfold steps
    simp only [Act.exec_bind, Act.exec_get, hsleep]
    split
    · exact .single hwaits nofun
    · refine .cons hwaits (isReached_step hrem ?_)
      intro w
      exact ih (next_remaining hrem)

/-- A run in a phase is the run put into that phase. -/
theorem with_phase {r : Run} {ph : Phase} (hph : r.phase = ph) : { r with phase := ph } = r := by
  subst hph
  rfl

/-- Beginning a run changes nothing about it but its id and the moment at which it began. -/
theorem begin_eq {r r' : Run} {w w' : World σ} (hbegin : r.begin.exec w = (.ok r', w')) :
    ∃ id since, r' = { r with id := id, since := since } := by
  unfold begin log at hbegin
  simp only [Act.exec_bind, Act.exec_modify, Act.exec_get, Act.exec_log, Act.exec_pure] at hbegin
  split at hbegin
  · obtain ⟨hr', -⟩ := Prod.mk.inj hbegin
    exact ⟨_, _, (Except.ok.inj hr').symm⟩
  · cases hbegin

/-- A run with nothing to do makes a record and ends. -/
theorem run_advance_idle {r : Run} (hph : r.phase = .fresh) (hrem : r.remaining = [])
    (w : World σ) : (advance h p r).run w = (({ r with phase := .ended }, .done),
      ((Act.log .debug logger "Nothing to run (no configuration or no actions)").exec w).2) := by
  obtain ⟨label, total, remaining, phase, index, id, since⟩ := r
  obtain rfl := hph
  obtain rfl := hrem
  rfl

/-- A run with something to do begins and goes on, unless an observer fails. -/
theorem run_advance_fresh {r : Run} (hph : r.phase = .fresh) (hrem : r.remaining ≠ [])
    (w : World σ) : (advance h p r).run w =
      match r.begin.exec w with
      | (.ok r', w') => outcome r' ((steps h p r' r.remaining).exec w')
      | (.error f, w') => (({ r with phase := .ended }, .failed f), w') := by
  obtain ⟨label, total, remaining, phase, index, id, since⟩ := r
  obtain rfl := hph
  obtain ⟨a, rest, rfl⟩ := List.exists_cons_of_ne_nil hrem
  unfold advance Act.exec
  dsimp only
  rw [StateT.run_bind]
  obtain ⟨res, w'⟩ := StateT.run (ExceptT.run (begin _)) w
  cases res with
  | error f => rfl
  | ok r' => exact run_within r' _ w'

/-- A run between two actions goes on with those that are left. -/
theorem run_advance_between {r : Run} (hph : r.phase = .between) (w : World σ) :
    (advance h p r).run w = outcome r ((steps h p r r.remaining).exec w) := by
  unfold advance
  rw [hph]
  exact run_within r _ w

/-- A run that has reloaded the surface ends. -/
theorem run_advance_reloaded {r : Run} (hph : r.phase = .reloaded) (w : World σ) :
    (advance h p r).run w = (({ r with phase := .ended }, .done), w.released) := by
  unfold advance
  rw [hph]
  exact run_within r _ w

/-- A run that waits in front of an action takes it up. -/
theorem run_advance_pacing {r : Run} {a : Action} {rest : List Action} (hph : r.phase = .pacing)
    (hrem : r.remaining = a :: rest) (w : World σ) :
    (advance h p r).run w = outcome r ((step h p r a (steps h p r.next rest)).exec w) := by
  unfold advance
  rw [hph, hrem]
  exact run_within r _ w

/-- A run that waits for the host settles the request, and goes on behind the action. -/
theorem run_advance_asking {r : Run} {a : Action} {rest : List Action} {q : Request} {since : Nat}
    (hph : r.phase = .asking q since) (hrem : r.remaining = a :: rest) (w : World σ) :
    (advance h p r).run w = outcome r
      ((a.settle h q since >>= fun e => applied p r a e (steps h p r.next rest)).exec w) := by
  unfold advance
  rw [hph, hrem]
  exact run_within r _ w

/-- A run that has ended stays as it is. -/
theorem run_advance_ended {r : Run} (hph : r.phase = .ended) (w : World σ) :
    (advance h p r).run w = ((r, .done), w) := by
  unfold advance
  rw [hph]
  rfl

/-- A run that waits in front of no action stays as it is. -/
theorem run_advance_nothing {r : Run} (hph : r.isBetween = false) (hrem : r.remaining = [])
    (w : World σ) : (advance h p r).run w = ((r, .done), w) := by
  obtain ⟨label, total, remaining, phase, index, id, since⟩ := r
  obtain rfl := hrem
  cases phase with
  | pacing | asking => rfl
  | fresh | between | reloaded | ended => cases hph

/-- A run that has something to do reaches the next place where it may be left by moves. -/
theorem isReached_advance (h : Host σ) (p : Pauses) {r : Run} (hended : r.phase ≠ .ended)
    (hwork : r.phase = .reloaded ∨ r.phase = .between ∨ r.remaining ≠ []) (w : World σ) :
    IsReached h w r ((advance h p r).run w) := by
  cases hph : r.phase with
  | fresh =>
    have hrem : r.remaining ≠ [] := by simpa [hph] using hwork
    rw [run_advance_fresh hph hrem]
    cases hbegin : r.begin.exec w with
    | mk res w' =>
      cases res with
      | error f => exact .single (.beginFails hph hrem hbegin) nofun
      | ok r' =>
        obtain ⟨id, since, rfl⟩ := begin_eq hbegin
        exact .cons (.begins hph hrem hbegin) (isReached_steps r.remaining rfl)
  | pacing =>
    cases hrem : r.remaining with
    | nil => simp [hph, hrem] at hwork
    | cons a rest =>
      have hstep : IsReached h w { r with phase := .pacing }
          (outcome r ((step h p r a (steps h p r.next rest)).exec w)) :=
        isReached_step hrem fun w => isReached_steps rest (next_remaining hrem)
      rw [with_phase hph] at hstep
      rw [run_advance_pacing hph hrem]
      exact hstep
  | asking q since =>
    cases hrem : r.remaining with
    | nil => simp [hph, hrem] at hwork
    | cons a rest =>
      rw [run_advance_asking hph hrem, Act.exec_bind]
      have hattempt := exec_attempt_asking (h := h) hph p.requests a w
      have hinside : r.phase.isInside = true := by rw [hph]; rfl
      generalize (a.settle h q since).exec w = out at hattempt ⊢
      obtain ⟨res, w'⟩ := out
      cases res with
      | error f => exact .single (.fails hinside hrem hattempt rfl) nofun
      | ok e =>
        exact isReached_applied (r := r) hinside hrem hattempt fun w =>
          isReached_steps rest (next_remaining hrem)
  | between =>
    have hsteps : IsReached h w { r with phase := .between }
        (outcome r ((steps h p r r.remaining).exec w)) := isReached_steps r.remaining rfl
    rw [with_phase hph] at hsteps
    rw [run_advance_between hph]
    exact hsteps
  | reloaded =>
    rw [run_advance_reloaded hph]
    exact .single (.ends hph rfl) fun _ => .inr (by simp)
  | ended => exact (hended hph).elim

/-- A run that has ended or has nothing left to do stays where it is or ends by a move, without any
deed. -/
theorem moves_advance_idle (h : Host σ) (p : Pauses) {r : Run}
    (hidle : r.phase = .ended ∨ r.phase ≠ .reloaded ∧ r.phase ≠ .between ∧ r.remaining = [])
    (w : World σ) :
    Moves h (w, r) [] (((advance h p r).run w).2, ((advance h p r).run w).1.1) := by
  obtain hph | ⟨hreloaded, hbetween, hrem⟩ := hidle
  · unfold advance
    rw [hph]
    exact .none _
  · cases hph : r.phase with
    | fresh =>
      rw [run_advance_idle hph hrem]
      exact .cons (.idles hph hrem) (.none _)
    | pacing | asking | ended =>
      unfold advance
      rw [hph, hrem]
      exact .none _
    | between => exact (hbetween hph).elim
    | reloaded => exact (hreloaded hph).elim

/-- A run goes on by moves. When it is done and had not ended before, it has finished or has ended
because of a reload, unless there was nothing left to do. -/
theorem exists_moves_advance (h : Host σ) (p : Pauses) (r : Run) (w : World σ) :
    ∃ ds, Moves h (w, r) ds (((advance h p r).run w).2, ((advance h p r).run w).1.1) ∧
      (((advance h p r).run w).1.2 = .done → r.phase ≠ .ended →
        .left .finished ∈ ds ∨ .left .reloaded ∈ ds ∨ ds = [] ∧ r.remaining = []) := by
  by_cases hended : r.phase = .ended
  · exact ⟨[], moves_advance_idle h p (.inl hended) w, fun _ hph => (hph hended).elim⟩
  · by_cases hwork : r.phase = .reloaded ∨ r.phase = .between ∨ r.remaining ≠ []
    · obtain ⟨ds, hmoves, hdone⟩ := isReached_advance h p hended hwork w
      refine ⟨ds, hmoves, fun hprogress _ => ?_⟩
      exact (hdone hprogress).imp_right .inl
    · simp only [not_or, Decidable.not_not] at hwork
      refine ⟨[], moves_advance_idle h p (.inr hwork) w, fun _ _ => ?_⟩
      exact .inr (.inr ⟨rfl, hwork.2.2⟩)

/-- The action that asks the host is the next one, and it makes that request. -/
def IsSound (r : Run) : Prop :=
  ∀ q since, r.phase = .asking q since → ∃ a rest, r.remaining = a :: rest ∧ a.request? = some q

/-- A run that does not ask the host is sound. -/
theorem isSound_of_ne {r : Run} (h : ∀ q since, r.phase ≠ .asking q since) : r.IsSound :=
  fun q since hph => (h q since hph).elim

/-- An action whose request is given up is cancelled. -/
theorem exec_timed_abandon (h : Host σ) (a : Action) (q : Request) (since : Nat) (w : World σ) :
    (a.timed since (do Act.abandon h q; throw ⟨.cancelled, []⟩)).exec w =
      ((.error ⟨.cancelled, []⟩, ((a.timed since (Act.abandon h q)).exec w).2) :
        Except Failure (Run × Progress) × World σ) := by
  rw [Action.exec_timed, Action.exec_timed, Act.exec_bind, Act.exec_abandon]
  rfl

/-- A run that is cancelled where it waits ends by a move. -/
theorem isReached_cancel {r : Run} (hsound : r.IsSound) (hinside : r.isBetween = false)
    (w : World σ) : IsReached h w r ((cancel h r).run w) := by
  unfold cancel
  cases hph : r.phase with
  | pacing =>
    dsimp only
    rw [run_within, Act.exec_throw]
    exact .single (.cancelsPacing hph rfl) nofun
  | asking q since =>
    obtain ⟨a, rest, hrem, -⟩ := hsound q since hph
    rw [hrem]
    dsimp only
    rw [run_within]
    rw [exec_timed_abandon]
    exact .single (.cancelsAsking hph hrem rfl) nofun
  | fresh | between | reloaded | ended =>
    unfold isBetween at hinside
    rw [hph] at hinside
    cases hinside

/-- A run that is closed where it has not taken up an action ends by a move, if it has not ended
before. -/
theorem exists_moves_close {r : Run} (hbetween : r.isBetween = true) (w : World σ) :
    ∃ ds, Moves h (w, r) ds ((r.close.run w).2, (r.close.run w).1) := by
  have hsingle {ds : List Deed} {y : World σ × Run} (hmove : Move h (w, r) ds y) :
      ∃ ds, Moves h (w, r) ds y := ⟨ds ++ [], .cons hmove (.none y)⟩
  unfold close
  cases hph : r.phase with
  | fresh => exact hsingle (.drops hph)
  | between => exact hsingle (.closes (.inl hph) rfl)
  | reloaded => exact hsingle (.closes (.inr hph) rfl)
  | ended =>
    change ∃ ds, Moves h (w, r) ds (w, { r with phase := .ended })
    rw [with_phase hph]
    exact ⟨[], .none _⟩
  | pacing | asking =>
    unfold isBetween at hbetween
    rw [hph] at hbetween
    cases hbetween

/-- A run that is cancelled has ended. -/
theorem phase_cancel (h : Host σ) (r : Run) (w : World σ) :
    ((r.cancel h).run w).1.1.phase = .ended := by
  unfold cancel
  cases r.phase with
  | pacing =>
    dsimp only
    rw [run_within, Act.exec_throw]
    rfl
  | asking q since =>
    cases r.remaining with
    | nil => rfl
    | cons a rest =>
      dsimp only
      rw [run_within, exec_timed_abandon]
      rfl
  | fresh | between | reloaded | ended => rfl

/-- A run that is closed has ended. -/
theorem phase_close (r : Run) (w : World σ) : (r.close.run w).1.phase = .ended := by
  unfold close
  cases r.phase with
  | between | reloaded => rfl
  | fresh | pacing | asking | ended => rfl

end Run

/-- An attempt waits for the request that its action makes. -/
theorem Run.request?_of_attempt {σ : Type} {h : Host σ} {mayWait : Bool} {r : Run} {a : Action}
    {w w' : World σ} {q : Request} {since : Nat}
    (hattempt : (r.attempt h mayWait a).exec w = (.ok (.waiting q since), w')) :
    a.request? = some q := by
  unfold attempt at hattempt
  split at hattempt
  · rw [Act.exec_bind] at hattempt
    split at hattempt
    · cases hattempt
    · cases hattempt
  · rw [Act.exec_bind] at hattempt
    split at hattempt
    · exact (Action.waiting_of_start hattempt).2
    · cases hattempt

/-- A run is sound behind every move. -/
theorem Move.isSound {σ : Type} {h : Host σ} {x y : World σ × Run} {ds : List Deed}
    (hmove : Move h x ds y) : y.2.IsSound := by
  have hended {r : Run} (hph : r.phase = .ended) : r.IsSound :=
    Run.isSound_of_ne fun q since hasking => by rw [hph] at hasking; cases hasking
  cases hmove with
  | idles | drops | beginFails => exact hended rfl
  | begins | waits | proceeds | reloads =>
    exact Run.isSound_of_ne fun q since hasking => by cases hasking
  | asks hinside hrem hattempt =>
    intro q since hph
    cases hph
    exact ⟨_, _, hrem, Run.request?_of_attempt hattempt⟩
  | reloadFails _ _ _ _ hph | fails _ _ _ hph | finishes _ _ _ hph | ends _ hph
  | cancelsPacing _ hph | cancelsAsking _ _ hph | closes _ hph => exact hended hph

/-- A run that makes moves stays sound. -/
theorem Moves.isSound {σ : Type} {h : Host σ} {x y : World σ × Run} {ds : List Deed}
    (hmoves : Moves h x ds y) (hsound : x.2.IsSound) : y.2.IsSound := by
  induction hmoves with
  | none => exact hsound
  | cons hmove _ ih => exact ih hmove.isSound

end PushButton
