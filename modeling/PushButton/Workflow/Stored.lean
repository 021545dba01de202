import PushButton.Failure
import PushButton.Json.Writer
import PushButton.Workflow.Format

/-!
# The stored form of workflows

A workflow is stored as a JSON object with its label and its actions, each with id, type and, where
there are any, parameters.
-/

namespace PushButton

/-- The stored form of an action. -/
def Action.toJson (a : Action) : Json :=
  let named : List (Text × Json) := [("id", .text a.id), ("type", .text a.kind.name)]
  match a.params with
  | none => .object named
  | some ps =>
    let params : Json := .object (ps.map fun (name, value) => (name, .text value))
    .object (named ++ [(("params" : Text), params)])

/-- Why a text holds no workflow. -/
inductive StoredError where
  /-- The text is no JSON. -/
  | json (e : Json.ParseError)
  /-- The value describes no workflow. -/
  | rejected (r : Rejection)
deriving DecidableEq, Repr

/-- The message about a text from a source. -/
def StoredError.message (source : Text) : StoredError → Text
  | .json e =>
    if e.isSyntax then "JSON parse error in workflow " ++ source ++ ": " ++ e.message else e.message
  | .rejected r => r.message source

/-- The kind of the failure to read a workflow from a text. -/
def StoredError.kind : StoredError → FailureKind
  | .json e => e.kind
  | .rejected _ => .invalid

namespace Workflow

/-- The stored form of a workflow. -/
def toJson (w : Workflow) : Json :=
  .object [("buttonLabel", .text w.label), ("actions", .array (w.actions.map Action.toJson))]

/-- The stored form as text, on one line or indented; a negative indent counts as zero. -/
def dump (w : Workflow) (indent : Option Int := none) : Text :=
  Json.write { indent := indent.map Int.toNat } w.toJson

/-- The workflow whose stored form a text is. -/
def parse (t : Text) : Except StoredError Workflow :=
  match Json.parse t with
  | .error e => .error (.json e)
  | .ok value => (ofJson value).mapError .rejected

end Workflow

end PushButton
