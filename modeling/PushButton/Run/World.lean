import PushButton.Data.Calendar
import PushButton.Host.Request
import PushButton.Storage.Workflow

/-!
# The world of a run

A run changes a surface and a storage, asks a host, draws random numbers and lets time pass.
Observers of the surface are told about every change; one that is told may print, may end
subscriptions, and may fail, which stops whatever made the change. A step that fails keeps the
changes it has made.
-/

namespace PushButton

/-- What an observer does when it is told about a change. -/
structure Reaction where
  /-- What it prints. -/
  prints : List Text := []
  /-- The names whose subscriptions it ends, one subscription for each. -/
  unsubscribes : List Text := []
  /-- How it fails, if it does. -/
  failure : Option Failure := none

/-- An observer of a surface. What it does may depend on all that has happened. -/
structure Listener where
  /-- Its name. -/
  name : Text
  /-- What it does about a change, given the latest occurrence first. -/
  react : Field → SurfaceState → List Occurrence → Reaction

/-- What is known about the runs on a surface. -/
structure Sequencer where
  /-- Milliseconds in front of every action. -/
  pacing : Nat
  /-- The number of runs that have begun. -/
  started : Nat := 0
  /-- The number of runs that have begun and not ended. -/
  active : Int := 0
  /-- The position of the action that was begun last, while a run is active. -/
  current : Option Nat := none
deriving DecidableEq, Repr

namespace Sequencer

/-- No run has begun; in front of every action some milliseconds pass, and none if there are fewer. -/
def paced (ms : Int) : Sequencer := { pacing := ms.toNat }

/-- At least one run is under way. -/
def isRunning (s : Sequencer) : Bool := s.active > 0

/-- Whether a run is under way, as a text. -/
def status (s : Sequencer) : Text := if s.isRunning then "running" else "idle"

end Sequencer

/-- The world of the runs on a surface, with the state of a host. -/
structure World (σ : Type) where
  /-- The surface. -/
  surface : SurfaceState
  /-- The observers, in the order of their subscriptions. -/
  listeners : List Listener := []
  /-- The storage and the file system. -/
  shelf : Shelf
  /-- The random numbers to come; then come zeros. -/
  draws : List Nat := []
  /-- Milliseconds that have passed. -/
  clock : Nat := 0
  /-- The number of run ids that were given. -/
  runIds : Nat := 0
  /-- The state of the host. -/
  host : σ
  /-- The runs. -/
  sequencer : Sequencer
  /-- What has happened, the latest first. -/
  past : List Occurrence := []

/-- A step in a world, which may fail; a failing step keeps its changes. -/
abbrev Act (σ : Type) := ExceptT Failure (StateM (World σ))

namespace World

variable {σ : Type}

/-- A world in which something more has happened. -/
def after (w : World σ) (os : List Occurrence) : World σ := { w with past := os.reverse ++ w.past }

/-- What has happened since a moment at which so many things had happened. -/
def since (w : World σ) (count : Nat) : List Occurrence :=
  (w.past.take (w.past.length - count)).reverse

end World

namespace Act

variable {σ : Type}

/-- Something happens. -/
def occur (o : Occurrence) : Act σ Unit := modify fun w => { w with past := o :: w.past }

/-- A record is made. -/
def log (level : Level) (logger message : Text) (context : Context := []) : Act σ Unit :=
  occur (.logged { level := level, logger := logger, message := message, context := context })

/-- The observers after the first subscription of each of some names has ended. -/
def without (names : List Text) (ls : List Listener) : List Listener :=
  names.foldl (fun ls name => ls.eraseP fun l => l.name = name) ls

/-- One observer is told about a change. -/
def tell (field : Field) (l : Listener) : Act σ Unit := do
  let w ← get
  let reaction := l.react field w.surface w.past
  occur (.notified l.name field w.surface.output.length w.surface.images.length)
  reaction.prints.forM fun t => occur (.printed t)
  modify fun w => { w with listeners := without reaction.unsubscribes w.listeners }
  match reaction.failure with
  | some f => throw f
  | none => pure ()

/-- Everyone who observes the surface now is told about a change, in the order of subscription. -/
def notify (field : Field) : Act σ Unit := do (← get).listeners.forM (tell field)

/-- The surface is changed in one part. -/
def change (field : Field) (f : SurfaceState → SurfaceState) : Act σ Unit := do
  modify fun w => { w with surface := f w.surface }
  notify field

/-- A line is put out. -/
def putLine (line : Text) : Act σ Unit :=
  change .output fun s => { s with output := s.output ++ [line] }

/-- An image is put out. -/
def putImage (url : Text) : Act σ Unit :=
  change .images fun s => { s with images := s.images ++ [url] }

/-- The button grows. -/
def grow (step : Float) : Act σ Unit := change .scale fun s => { s with scale := s.scale + step }

/-- The button takes a colour. -/
def paint (color : Text) : Act σ Unit := change .color fun s => { s with color := color }

/-- The button is disabled. -/
def disable : Act σ Unit := change .disabled fun s => { s with disabled := true }

/-- The lines and the images are taken away. -/
def clear : Act σ Unit := do
  change .output SurfaceState.cleared
  notify .images

/-- The surface is made anew. -/
def remake : Act σ Unit := do
  modify fun w => { w with surface := w.surface.remade }
  Field.all.forM notify

/-- An observer subscribes. -/
def subscribe (l : Listener) : Act σ Unit :=
  modify fun w => { w with listeners := w.listeners ++ [l] }

/-- The first subscription of a name ends. -/
def unsubscribe (name : Text) : Act σ Unit :=
  modify fun w => { w with listeners := without [name] w.listeners }

/-- Milliseconds pass. -/
def sleep (ms : Nat) : Act σ Unit := do
  if ms > 0 then
    modify fun w => { w with clock := w.clock + ms }
    occur (.slept ms)

/-- The next random number below a bound. -/
def draw (bound : Nat) : Act σ Nat := do
  let w ← get
  set { w with draws := w.draws.drop 1 }
  pure (w.draws.headD 0 % bound)

/-- A text is stored. -/
def store (key value : Text) : Act σ (Except StorageError Unit) := do
  let w ← get
  let (result, shelf, records) := w.shelf.setLogged key value
  set ({ w with shelf := shelf }.after (records.map .logged))
  pure result

/-- The host is asked, and replies unless the request has to wait. -/
def ask (h : Host σ) (r : Request) : Act σ (Option Reply) := do
  let w ← get
  let (reply, host, os) := h.ask r w.host
  set ({ w with host := host }.after os)
  pure reply

/-- The host settles a request that waits. -/
def settle (h : Host σ) (r : Request) : Act σ Reply := do
  let w ← get
  let (reply, host, os) := h.settle r w.host
  set ({ w with host := host }.after os)
  pure reply

/-- A request to the host is given up. -/
def abandon (h : Host σ) (r : Request) : Act σ Unit := do
  let w ← get
  let (host, os) := h.abandon r w.host
  set ({ w with host := host }.after os)

end Act

end PushButton
