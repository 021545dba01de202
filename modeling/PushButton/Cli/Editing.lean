import PushButton.Cli.Shell
import PushButton.Workflow.Editing

/-!
# Commands that edit the stored workflow

Each of these commands reads the stored workflow, changes it in one way and stores it again. A
command that finds nothing to change stores nothing.
-/

namespace PushButton

namespace Cli

namespace Job

/-- The stored workflow, or else a new one, for editing. -/
def edited : Job Workflow := do
  let w ← stored? unreadable
  pure (w.getD (.new (← get).settings.label))

/-- The label is replaced. -/
def label (t : Text) : Job Unit := do
  let w ← edited
  store (w.relabel t)
  say ("Label set to " ++ t.quoted)

/-- The parameters that texts stand for: a name, an equals sign and a value. Of two with one name
the later value counts. -/
def paramsOf (texts : List Text) : Except UsageFault (List (Text × Json)) :=
  texts.foldlM (fun params (t : Text) =>
    match Text.cut? (.char '=') t with
    | some (name, value) => .ok (Json.put (Text.strip name) (.text value) params)
    | none => .error (.invalid "--param" ("expected key=value, got " ++ t.quoted))) []

/-- A new action of a kind; it takes the next id. -/
def newAction (kind : ActionKind) (params : List (Text × Json)) : Job Action := do
  occur ((Action.makeRecords kind params).map .logged)
  modify fun s => { s with machine := { s.machine with actionIds := s.machine.actionIds + 1 } }
  pure (Action.make (Action.idOf (← get).machine.actionIds) kind params)

/-- An action is added. -/
def add (kind : Text) (params : List Text) : Job Unit := do
  let w ← edited
  match paramsOf params with
  | .error f => throw (.usage (spec? "add") f)
  | .ok params =>
    match Workflow.kindOf kind with
    | .error u =>
      say (errorWord ++ u.message)
      exit 2
    | .ok kind =>
      let a ← newAction kind params
      store (w.add a)
      say ("Added " ++ a.describe ++ " id=" ++ a.id ++ " at #" ++ Text.ofNat w.actions.length)

/-- The actions with an id are removed. -/
def remove (id : Text) : Job Unit := do
  let w ← edited
  match w.remove? id with
  | none =>
    say ("No action with id " ++ id.quoted)
    exit 1
  | some w =>
    store w
    say ("Removed " ++ id)

/-- An action is moved to another position, unless it cannot be moved in that direction. -/
def move (index target : Int) (direction : Text) (moved : Workflow → Option Workflow) :
    Job Unit := do
  let w ← edited
  match moved w with
  | none => say ("Cannot move #" ++ Text.ofInt index ++ " " ++ direction)
  | some w =>
    store w
    say ("Moved #" ++ Text.ofInt index ++ " -> #" ++ Text.ofInt target)

/-- An action is moved to the front. -/
def moveUp (index : Int) : Job Unit := move index (index - 1) "up" (·.moveUp? index)

/-- An action is moved to the back. -/
def moveDown (index : Int) : Job Unit := move index (index + 1) "down" (·.moveDown? index)

/-- All actions are removed. -/
def clear : Job Unit := do
  let w ← edited
  store w.clear
  say "All actions removed"

/-- The workflow as a whole is removed. -/
def clearAll : Job Unit := do
  discardStored
  say "Configuration deleted"

end Job

end Cli

end PushButton
