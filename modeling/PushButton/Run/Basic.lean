import PushButton.Run.Step

/-!
# Runs

A run clears the output of the surface and applies the actions of a workflow in order, each after a
waiting time. It can be left in the middle: while it waits, while the host is asked, and after each
action. Any number of runs can be under way on one surface, each of them going on when its turn
comes.
-/

namespace PushButton

/-- Where a run is. -/
inductive Phase where
  /-- Nothing has been done yet. -/
  | fresh
  /-- It waits in front of the next action. -/
  | pacing
  /-- The host is asked by the next action, which was begun at a moment. -/
  | asking (r : Request) (since : Nat)
  /-- An action was applied. -/
  | between
  /-- The surface was reloaded. -/
  | reloaded
  /-- It has ended. -/
  | ended
deriving DecidableEq, Repr

/-- A run. -/
structure Run where
  /-- The label of its workflow. -/
  label : Text
  /-- The number of actions of its workflow. -/
  total : Nat
  /-- The actions that were not yet applied. -/
  remaining : List Action
  /-- Where it is. -/
  phase : Phase := .fresh
  /-- The position of the next action. -/
  index : Nat := 0
  /-- Its id, once it has begun. -/
  id : Text := []
  /-- The moment at which it began. -/
  since : Nat := 0
deriving DecidableEq, Repr

/-- Where a run may be left. -/
structure Pauses where
  /-- While it waits. -/
  sleeps : Bool := false
  /-- While the host is asked. -/
  requests : Bool := false
  /-- After each action. -/
  steps : Bool := false
deriving DecidableEq, Repr

/-- How far a run has come. -/
inductive Progress where
  /-- It waits for some milliseconds. -/
  | sleeping (ms : Nat)
  /-- It waits for the host. -/
  | asking (r : Request)
  /-- It has applied the action with an id at a position. -/
  | stepped (index : Nat) (id : Text) (e : Effect)
  /-- It has ended. -/
  | done
  /-- It has failed. -/
  | failed (f : Failure)
deriving DecidableEq, Repr

namespace Run

variable {σ : Type}

/-- A run of a workflow; without a workflow there is nothing to run. -/
def ofWorkflow (w : Option Workflow) : Run :=
  match w with
  | none => { label := [], total := 0, remaining := [] }
  | some w => { label := w.label, total := w.actions.length, remaining := w.actions }

/-- The name of the part of the program that runs workflows. -/
def logger : Text := "button_workflow.core.engine"

/-- The beginning of the year 2024, in microseconds, from which runs are numbered. -/
def firstMoment : Nat := 1704067200000000

/-- The id of the run with a number: the moment so many milliseconds after the first. -/
def idOf (n : Nat) : Text := (Moment.ofMicros (firstMoment + 1000 * n)).compact

/-- The context of the records of a run. -/
def context (r : Run) : Context := [("run_id", .text r.id)]

/-- The context of the records about an action of a run. -/
def stepContext (r : Run) (a : Action) : Context :=
  r.context ++ [(("step_index" : Text), .int (r.index + 1)), ("action", .text a.kind.name)]

/-- A record of a run. -/
def log (context : Context) (message : Text) : Act σ Unit := Act.log .info logger message context

/-- An active run has ended. -/
def release (s : Sequencer) : Sequencer :=
  { s with active := s.active - 1, current := if s.active - 1 = 0 then none else s.current }

/-- The run with an action applied. -/
def next (r : Run) : Run := { r with index := r.index + 1, remaining := r.remaining.drop 1 }

/-- The run goes on behind an action with an effect. -/
def applied (p : Pauses) (r : Run) (a : Action) (e : Effect) (onward : Act σ (Run × Progress)) :
    Act σ (Run × Progress) := do
  match e with
  | .reload => do
    log (r.stepContext a) "Surface reloaded, run ends here"
    Act.remake
    if p.steps then pure ({ r.next with phase := .reloaded }, .stepped r.index a.id e)
    else pure ({ r.next with phase := .ended }, .done)
  | .proceed =>
    if p.steps then pure ({ r.next with phase := .between }, .stepped r.index a.id e) else onward

/-- The next action is begun. -/
def step (h : Host σ) (p : Pauses) (r : Run) (a : Action) (onward : Act σ (Run × Progress)) :
    Act σ (Run × Progress) := do
  modify fun w => { w with sequencer := { w.sequencer with current := some r.index } }
  log (r.stepContext a)
    ("Step " ++ Text.ofNat (r.index + 1) ++ "/" ++ Text.ofNat r.total ++ ": " ++ a.describe)
  match ← a.start h p.requests with
  | .waiting request since => pure ({ r with phase := .asking request since }, .asking request)
  | .applied e => applied p r a e onward

/-- The run has applied all its actions. -/
def finish (r : Run) : Act σ (Run × Progress) := do
  let w ← get
  let elapsed := Duration.between r.since w.clock
  log r.context
    ("Workflow finished in " ++ Text.ofNat elapsed ++ " ms (output lines=" ++
      Text.ofNat w.surface.output.length ++ ")")
  pure ({ r with phase := .ended }, .done)

/-- The run goes on with the actions that are left. -/
def steps (h : Host σ) (p : Pauses) (r : Run) : List Action → Act σ (Run × Progress)
  | [] => r.finish
  | a :: rest => do
    let ms := (← get).sequencer.pacing
    Act.sleep ms
    if p.sleeps && ms > 0 then pure ({ r with phase := .pacing }, .sleeping ms)
    else step h p r a (steps h p r.next rest)

/-- A part of an active run: when the run ends in it or fails, it is no longer active. -/
def within (r : Run) (act : Act σ (Run × Progress)) : StateM (World σ) (Run × Progress) := do
  let leave : StateM (World σ) Unit :=
    modify fun w => { w with sequencer := release w.sequencer }
  match ← act.run with
  | .ok (r, progress) => do
    if r.phase = .ended then leave
    pure (r, progress)
  | .error f => do
    leave
    pure ({ r with phase := .ended }, .failed f)

/-- A run begins: it gets its id, and the output of the surface is cleared. -/
def begin (r : Run) : Act σ Run := do
  modify fun w =>
    { w with
      runIds := w.runIds + 1
      sequencer := { w.sequencer with
        started := w.sequencer.started + 1, active := w.sequencer.active + 1 } }
  let w ← get
  let r := { r with id := idOf w.runIds, since := w.clock }
  log r.context
    ("Starting workflow '" ++ r.label ++ "' (actions=" ++ Text.ofNat r.total ++ ", pacing=" ++
      Text.ofNat w.sequencer.pacing ++ " ms)")
  Act.clear
  pure r

/-- A run goes on to the next place where it may be left. -/
def advance (h : Host σ) (p : Pauses) (r : Run) : StateM (World σ) (Run × Progress) := do
  match r.phase, r.remaining with
  | .fresh, [] => do
    let note : Act σ Unit := Act.log .debug logger "Nothing to run (no configuration or no actions)"
    let _ ← note.run
    pure ({ r with phase := .ended }, .done)
  | .fresh, actions => do
    match ← (begin r : Act σ Run).run with
    | .error f => pure ({ r with phase := .ended }, .failed f)
    | .ok r => within r (steps h p r actions)
  | .pacing, a :: rest => within r (step h p r a (steps h p r.next rest))
  | .asking request since, a :: rest =>
    within r do applied p r a (← a.settle h request since) (steps h p r.next rest)
  | .between, actions => within r (steps h p r actions)
  | .reloaded, _ => within r (pure ({ r with phase := .ended }, .done))
  | .ended, _ => pure (r, .done)
  | .pacing, [] => pure (r, .done)
  | .asking _ _, [] => pure (r, .done)

/-- A run is left inside an action or in front of it. -/
def cancel (h : Host σ) (r : Run) : StateM (World σ) (Run × Progress) := do
  let f : Failure := ⟨.cancelled, []⟩
  match r.phase, r.remaining with
  | .pacing, _ => within r (throw f)
  | .asking request since, a :: _ =>
    within r (a.timed since (do Act.abandon h request; throw f))
  | _, _ => pure ({ r with phase := .ended }, .failed f)

/-- A run is left between two actions, at its beginning or at its end. -/
def close (r : Run) : StateM (World σ) Run := do
  match r.phase with
  | .between | .reloaded => do
    let (r, _) ← within r (pure ({ r with phase := .ended }, .done))
    pure r
  | _ => pure { r with phase := .ended }

/-- A run that is not inside an action or in front of one. -/
def isBetween (r : Run) : Bool :=
  match r.phase with
  | .pacing | .asking _ _ => false
  | .fresh | .between | .reloaded | .ended => true

/-- A complete run of a workflow. -/
def complete (h : Host σ) (w : Option Workflow) : Act σ Unit := do
  let (_, progress) ← (advance h {} (ofWorkflow w) : StateM (World σ) (Run × Progress))
  match progress with
  | .failed f => throw f
  | _ => pure ()

/-- A complete run on a surface of its own, which is then looked at. -/
def apart (h : Host σ) (color : Text) (w : Option Workflow) : Act σ SurfaceState := do
  let outside ← get
  set { outside with
    surface := .fresh color, listeners := [], sequencer := { pacing := outside.sequencer.pacing } }
  let put (inside : World σ) : World σ :=
    { inside with
      surface := outside.surface, listeners := outside.listeners, sequencer := outside.sequencer }
  tryCatch (complete h w) fun f => do
    modify put
    throw f
  let seen := (← get).surface
  modify put
  pure seen

/-- A complete run of a workflow, or else of the stored one, on a surface of its own; nothing when
there is no workflow. -/
def standalone (h : Host σ) (color key : Text) (given : Option Workflow) :
    Act σ (Option SurfaceState) := do
  match given with
  | some w => pure (some (← apart h color (some w)))
  | none =>
    match (← get).shelf.loadWorkflow key with
    | .error f => throw f
    | .ok (some w) => pure (some (← apart h color (some w)))
    | .ok none =>
      Act.log .warning logger "No configuration found"
      pure none

end Run

end PushButton
