import PushButton.Run.Basic

/-!
# Runs that overlap

Any number of runs share one surface. Whoever drives them starts a run, lets one go on to the next
place where it may be left, or gives one up, in any order. A run is driven as a whole, or it is left
after every action too.
-/

namespace PushButton

/-- A run that was started. -/
structure StartedRun where
  /-- The workflow, where one was given. -/
  workflow : Option Workflow
  /-- The run is left after every action. -/
  stepwise : Bool
  /-- How far it has come. -/
  run : Run
deriving DecidableEq, Repr

namespace StartedRun

/-- The actions of the workflow. -/
def actions (s : StartedRun) : List Action := (s.workflow.map Workflow.actions).getD []

/-- The places where the run is left. -/
def pauses (s : StartedRun) : Pauses := { sleeps := true, requests := true, steps := s.stepwise }

/-- A run that has just been started. -/
def new (workflow : Option Workflow) (stepwise : Bool) : StartedRun :=
  ⟨workflow, stepwise, Run.ofWorkflow workflow⟩

end StartedRun

/-- The runs on a surface and their world. -/
structure Traffic (σ : Type) where
  /-- The world. -/
  world : World σ
  /-- The runs in the order in which they were started. -/
  runs : List StartedRun := []

/-- What is done with the runs next. -/
inductive Turn where
  /-- A run is started. -/
  | start (workflow : Option Workflow) (stepwise : Bool)
  /-- The run with a number goes on. -/
  | resume (k : Nat)
  /-- The run with a number is cancelled. -/
  | cancel (k : Nat)
  /-- The run with a number is closed. -/
  | close (k : Nat)
deriving DecidableEq, Repr

namespace Traffic

variable {σ : Type}

/-- The run with a number does something. -/
def drive (t : Traffic σ) (k : Nat) (f : StartedRun → StateM (World σ) Run) : Traffic σ :=
  match t.runs[k]? with
  | none => t
  | some s =>
    let (run, world) := (f s).run t.world
    { world := world, runs := t.runs.set k { s with run := run } }

/-- A run is given up: between two actions it is closed, and inside one or in front of one what
waits there fails. -/
def giveUp (h : Host σ) (s : StartedRun) : StateM (World σ) Run :=
  if s.run.isBetween then s.run.close else (·.1) <$> s.run.cancel h

/-- A turn is taken. -/
def take (h : Host σ) (t : Traffic σ) : Turn → Traffic σ
  | .start workflow stepwise => { t with runs := t.runs ++ [.new workflow stepwise] }
  | .resume k => t.drive k fun s => (·.1) <$> s.run.advance h s.pauses
  | .cancel k | .close k => t.drive k (giveUp h)

/-- Turns are taken one after the other. -/
def takeAll (h : Host σ) (t : Traffic σ) (turns : List Turn) : Traffic σ := turns.foldl (take h) t

end Traffic

end PushButton
