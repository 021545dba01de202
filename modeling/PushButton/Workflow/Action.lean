import PushButton.Json.Value
import PushButton.Text.Quoted

/-!
# Actions and workflows

A workflow is the label of a button and the list of actions that pressing it runs. Every kind of
action reads a fixed list of parameters; the others are kept but have no effect.
-/

namespace PushButton

/-- What an action does. -/
inductive ActionKind where
  /-- Shows a message and waits until it is acknowledged. -/
  | alert
  /-- Appends a line to the output. -/
  | showText
  /-- Appends an image to the gallery. -/
  | showImage
  /-- Reloads the surface, which ends the run. -/
  | refreshPage
  /-- Stores a value under a key. -/
  | setLocalStorage
  /-- Shows the value under a key. -/
  | getLocalStorage
  /-- Makes the button larger. -/
  | increaseButtonSize
  /-- Asks the surface to close. -/
  | closeWindow
  /-- Asks a question and shows the answer. -/
  | promptAndShow
  /-- Gives the button a colour. -/
  | changeButtonColor
  /-- Disables the button. -/
  | disableButton
deriving DecidableEq, Repr

namespace ActionKind

/-- The kinds in the order in which they are listed. -/
def all : List ActionKind :=
  [.alert, .showText, .showImage, .refreshPage, .setLocalStorage, .getLocalStorage,
    .increaseButtonSize, .closeWindow, .promptAndShow, .changeButtonColor, .disableButton]

/-- The name of a kind. -/
def name : ActionKind → Text
  | .alert => "alert"
  | .showText => "showText"
  | .showImage => "showImage"
  | .refreshPage => "refreshPage"
  | .setLocalStorage => "setLocalStorage"
  | .getLocalStorage => "getLocalStorage"
  | .increaseButtonSize => "increaseButtonSize"
  | .closeWindow => "closeWindow"
  | .promptAndShow => "promptAndShow"
  | .changeButtonColor => "changeButtonColor"
  | .disableButton => "disableButton"

/-- The parameters that a kind reads. -/
def parameters : ActionKind → List Text
  | .alert => ["message"]
  | .showText => ["text"]
  | .showImage => ["url"]
  | .setLocalStorage => ["key", "value"]
  | .getLocalStorage => ["key"]
  | .promptAndShow => ["message"]
  | .changeButtonColor => ["color"]
  | .refreshPage | .increaseButtonSize | .closeWindow | .disableButton => []

/-- The kind with a name. -/
def ofName? (name : Text) : Option ActionKind := all.find? fun k => k.name = name

theorem mem_all (k : ActionKind) : k ∈ all := by cases k <;> decide

theorem ofName?_name (k : ActionKind) : ofName? k.name = some k := by cases k <;> decide

end ActionKind

/-- One action of a workflow. -/
structure Action where
  /-- What the action is called in list operations. -/
  id : Text
  /-- What the action does. -/
  kind : ActionKind
  /-- The parameters in order, where there are any. -/
  params : Option (List (Text × Text))
deriving DecidableEq, Repr

/-- A button and what pressing it does. -/
structure Workflow where
  /-- The label of the button. -/
  label : Text
  /-- The actions in the order of their application. -/
  actions : List Action
deriving DecidableEq, Repr

namespace Action

/-- The value of a parameter; empty when the action carries none of that name. -/
def param (a : Action) (name : Text) : Text := ((a.params.getD []) |> Json.lookup name).getD []

/-- The parameters that the action reads and that are not empty. -/
def given (a : Action) : List (Text × Text) :=
  (a.kind.parameters.map fun name => (name, a.param name)).filter fun (_, value) => !value.isEmpty

/-- The kind of the action with the parameters given to it, values quoted. -/
def describe (a : Action) : Text :=
  if a.given.isEmpty then a.kind.name
  else
    let parts := a.given.map fun (name, value) => name ++ "=" ++ value.quoted
    a.kind.name ++ "(" ++ Text.join ", " parts ++ ")"

end Action

/-- The label of a button that was given none. -/
def Workflow.standardLabel : Text := "Click Me!"

end PushButton
