import PushButton.Log.Duration
import PushButton.Run.World

/-!
# Applying an action

An action changes one part of the surface, or the storage, or asks the host. What is missing in its
parameters makes it do nothing. A request that the host refuses and a storage that fails are dealt
with and recorded; any other failure of the host stops the run, and so does a storage whose data are
nested too deeply.
-/

namespace PushButton

/-- What an action means for the run. -/
inductive Effect where
  /-- The run goes on. -/
  | proceed
  /-- The surface was reloaded, which ends the run. -/
  | reload
deriving DecidableEq, Repr

/-- An action that was begun. -/
inductive Begun where
  /-- It was applied. -/
  | applied (e : Effect)
  /-- It waits for the host since a moment. -/
  | waiting (r : Request) (since : Nat)
deriving DecidableEq, Repr

/-- A text, or another one when it is empty. -/
def Text.orElse (t other : Text) : Text := if t.isEmpty then other else t

namespace Action

/-- The request that an action makes to the host, where it makes one. -/
def request? (a : Action) : Option Request :=
  match a.kind with
  | .alert => some (.alert ((a.param "message").orElse "Alert"))
  | .promptAndShow => some (.prompt ((a.param "message").orElse "Please enter a value"))
  | .refreshPage => some .reload
  | .closeWindow => some .close
  | _ => none

/-- The name of the part of the program that applies actions. -/
def logger : Text := "button_workflow.core.actions"

/-- A colour by its number. -/
def randomColor (n : Nat) : Text := "#" ++ Text.hex 6 n

/-- The number of colours. -/
def colorCount : Nat := 0x1000000

/-- A failure of the storage is recorded when data or the file system are at fault, and any other
one stops the action. -/
def whenUnusable {σ : Type} (f : Failure) (wording : Text) : Act σ Unit :=
  if f.kind.isInvalid || f.kind.isFile then Act.log .warning logger (wording ++ f.message)
  else throw f

/-- A text is stored and the line about it put out; nothing happens when a parameter is missing. -/
def saveItem {σ : Type} (key value : Text) : Act σ Unit := do
  if key.isEmpty || value.isEmpty then return
  match ← Act.store key value with
  | .error e => whenUnusable e.failure ("could not write " ++ key.quoted ++ " to storage: ")
  | .ok () => Act.putLine ("Saved to localStorage: " ++ key ++ " = " ++ value)

/-- The line about a stored text is put out; an empty text counts as missing. -/
def showItem {σ : Type} (key : Text) : Act σ Unit := do
  if key.isEmpty then return
  match (← get).shelf.get? key with
  | .error e => whenUnusable e.failure ("could not read " ++ key.quoted ++ " from storage: ")
  | .ok value => Act.putLine (key ++ ": " ++ (value.getD []).orElse "Not found")

/-- An action that makes no request is applied. -/
def perform {σ : Type} (a : Action) : Act σ Unit :=
  match a.kind with
  | .showText => Act.putLine (a.param "text")
  | .showImage =>
    let url := a.param "url"
    if url.isEmpty then pure () else Act.putImage url
  | .setLocalStorage => saveItem (a.param "key") (a.param "value")
  | .getLocalStorage => showItem (a.param "key")
  | .increaseButtonSize => Act.grow SurfaceState.growth
  | .changeButtonColor => do
    let color := a.param "color"
    if color = "random" then Act.paint (randomColor (← Act.draw colorCount))
    else if color.isEmpty then pure ()
    else Act.paint color
  | .disableButton => Act.disable
  | .alert | .promptAndShow | .refreshPage | .closeWindow => pure ()

/-- A refusal is recorded, and any other failure stops the action. -/
def whenRefused {σ : Type} (f : Failure) (level : Level) (wording : Text) : Act σ Unit :=
  if f.kind = .refused then Act.log level logger (wording ++ f.message) else throw f

/-- What the reply to the request of an action means. -/
def conclude {σ : Type} (a : Action) (reply : Reply) : Act σ Effect := do
  match a.kind, reply with
  | .alert, .failed f =>
    whenRefused f .warning "alert not shown: "
    pure .proceed
  | .promptAndShow, .failed f =>
    whenRefused f .warning "prompt failed, treated as cancelled: "
    pure .proceed
  | .promptAndShow, .answer (some t) =>
    Act.putLine ("You entered: " ++ t)
    pure .proceed
  | .refreshPage, .failed f =>
    whenRefused f .warning "reload denied, continuing run: "
    pure .proceed
  | .refreshPage, _ => pure .reload
  | .closeWindow, .failed f =>
    whenRefused f .info "close request refused: "
    Act.putLine "Failed to close window"
    pure .proceed
  | .closeWindow, _ =>
    Act.putLine "Attempted to close window (may be blocked by browser)"
    pure .proceed
  | _, .failed f => throw f
  | _, _ => pure .proceed

/-- The record about how long an action took is made, however it ends. -/
def timed {σ α : Type} (a : Action) (since : Nat) (act : Act σ α) : Act σ α := do
  let record : Act σ Unit := do
    Act.occur (.logged (Duration.record a.kind.name "DEBUG" since (← get).clock))
  let result ← tryCatch act fun f => do
    record
    throw f
  record
  pure result

/-- The request of an action is settled. -/
def settle {σ : Type} (h : Host σ) (a : Action) (r : Request) (since : Nat) : Act σ Effect :=
  timed a since do conclude a (← Act.settle h r)

/-- An action is begun; where it may wait it waits for a host that does not reply at once. -/
def start {σ : Type} (h : Host σ) (mayWait : Bool) (a : Action) : Act σ Begun := do
  Act.log .debug logger ("Applying " ++ a.describe)
    [("action", .text a.kind.name), ("action_id", .text a.id)]
  let since := (← get).clock
  match a.request? with
  | none => do
    timed a since (perform a)
    pure (.applied .proceed)
  | some r => do
    match ← Act.ask h r with
    | some reply => pure (.applied (← timed a since (conclude a reply)))
    | none =>
      if mayWait then pure (.waiting r since) else pure (.applied (← settle h a r since))

/-- An action is applied without waiting. -/
def apply {σ : Type} (h : Host σ) (a : Action) : Act σ Effect := do
  match ← start h false a with
  | .applied e => pure e
  | .waiting r since => settle h a r since

end Action

end PushButton
