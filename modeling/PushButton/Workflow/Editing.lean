import PushButton.Data.Datum
import PushButton.Failure
import PushButton.Log.Record
import PushButton.Workflow.Action

/-!
# Editing a workflow

The label of a workflow is replaced, and its actions are added at the end, removed by id, exchanged
with a neighbour, or all taken away. An action that is added keeps only the parameters that its kind
reads and that have a value, and no action is added when one of these cannot be written.
-/

namespace PushButton

/-- A name that is the name of no kind. -/
structure UnknownKind where
  /-- The name. -/
  name : Text
deriving DecidableEq, Repr

/-- The message about an unknown name. -/
def UnknownKind.message (e : UnknownKind) : Text :=
  "Unknown action type " ++ e.name.quoted ++ ". Valid types: " ++
    Text.join ", " (ActionKind.all.map ActionKind.name)

/-- Why no action is added. -/
inductive NotAdded where
  /-- No kind has the name. -/
  | unknownKind (e : UnknownKind)
  /-- A parameter that would be kept is nested too deeply to be written. -/
  | deepParameter
  /-- A parameter that would be kept holds an integer with too many digits to be written. -/
  | longParameter
deriving DecidableEq, Repr

/-- The failure to add an action. -/
def NotAdded.failure : NotAdded → Failure
  | .unknownKind e => ⟨.invalid, e.message⟩
  | .deepParameter =>
    ⟨.tooDeep, "maximum recursion depth exceeded while getting the repr of an object"⟩
  | .longParameter => ⟨.invalid, Text.tooManyDigits none⟩

namespace Action

/-- The id with a number. -/
def idOf (n : Nat) : Text := Text.hex 32 n

/-- The parameters among some given ones that a kind reads and that have a value. -/
def keptParams (kind : ActionKind) (given : List (Text × Json)) : List (Text × Text) :=
  given.filterMap fun (name, value) =>
    match value with
    | .null => none
    | v => if kind.parameters.contains name then some (name, (Datum.ofJson v).shown) else none

/-- What stands in the way of a value that is to be written as a parameter, if anything does. -/
def obstacle? (value : Json) : Option NotAdded :=
  let d := Datum.ofJson value
  if d.depth > Datum.maxDepth then some .deepParameter
  else if d.isUnwritable then some .longParameter
  else none

/-- What stands in the way of the parameters among some given ones that a kind reads: the obstacle
to the first of them that cannot be written. -/
def obstacleIn? (kind : ActionKind) (given : List (Text × Json)) : Option NotAdded :=
  given.findSome? fun (name, value) =>
    if kind.parameters.contains name then obstacle? value else none

/-- The names of given parameters that are not kept, in order. -/
def droppedNames (kind : ActionKind) (given : List (Text × Json)) : List Text :=
  let kept := (keptParams kind given).map (·.1)
  ((given.map (·.1)).filter fun name => !kept.contains name).mergeSort Text.le

/-- A new action with an id. -/
def make (id : Text) (kind : ActionKind) (given : List (Text × Json)) : Action :=
  let kept := keptParams kind given
  ⟨id, kind, if kept.isEmpty then none else some kept⟩

theorem getD_params_make (id : Text) (kind : ActionKind) (given : List (Text × Json)) :
    (make id kind given).params.getD [] = keptParams kind given := by
  unfold make
  dsimp only
  split
  · next hempty => exact (List.isEmpty_iff.mp hempty).symm
  · rfl

theorem mem_params_make_iff {id : Text} {kind : ActionKind} {given : List (Text × Json)}
    {ps : List (Text × Text)} :
    ps ∈ (make id kind given).params ↔ ps = keptParams kind given ∧ ps ≠ [] := by
  unfold make
  dsimp only
  split
  · next hempty =>
    rw [List.isEmpty_iff.mp hempty]
    exact ⟨nofun, fun h => absurd h.1 h.2⟩
  · next hkept =>
    rw [Option.mem_some_iff]
    constructor
    · rintro rfl
      exact ⟨rfl, fun hempty => hkept (List.isEmpty_iff.mpr hempty)⟩
    · rintro ⟨rfl, -⟩
      rfl

/-- The records about a new action: one about the parameters that were not kept, if there are
any. -/
def makeRecords (kind : ActionKind) (given : List (Text × Json)) : List Record :=
  let dropped := droppedNames kind given
  if dropped.isEmpty then []
  else
    let r : Record :=
      { level := .debug
        logger := "button_workflow.core.editor"
        message := "Ignoring params " ++ Text.quotedList dropped ++ " for " ++ kind.name }
    [r]

end Action

namespace Workflow

/-- A workflow without actions. -/
def new (label : Text) : Workflow := ⟨label, []⟩

/-- The workflow with another label. -/
def relabel (label : Text) (w : Workflow) : Workflow := { w with label := label }

/-- The workflow with an action at its end. -/
def add (a : Action) (w : Workflow) : Workflow := { w with actions := w.actions ++ [a] }

/-- The workflow without the actions that have an id; nothing when there is none. -/
def remove? (id : Text) (w : Workflow) : Option Workflow :=
  if w.actions.any fun a => a.id = id then
    some { w with actions := w.actions.filter fun a => a.id ≠ id }
  else none

/-- A list with the item at a position exchanged with the next one; nothing when there are no such
items. -/
def exchange? {α : Type} : Nat → List α → Option (List α)
  | 0, a :: b :: rest => some (b :: a :: rest)
  | n + 1, a :: rest => (exchange? n rest).map (a :: ·)
  | _, _ => none

/-- The workflow with the action at a position moved in front of the one before it. -/
def moveUp? (index : Int) (w : Workflow) : Option Workflow :=
  if index ≤ 0 then none
  else (exchange? (index - 1).toNat w.actions).map fun actions => { w with actions := actions }

/-- The workflow with the action at a position moved behind the one after it. -/
def moveDown? (index : Int) (w : Workflow) : Option Workflow :=
  if index < 0 then none
  else (exchange? index.toNat w.actions).map fun actions => { w with actions := actions }

/-- The workflow without its actions. -/
def clear (w : Workflow) : Workflow := { w with actions := [] }

/-- The kind with a name, for a new action. -/
def kindOf (name : Text) : Except UnknownKind ActionKind :=
  match ActionKind.ofName? name with
  | some kind => .ok kind
  | none => .error ⟨name⟩

/-- A new action of the kind with a name. -/
def entered (id name : Text) (given : List (Text × Json)) : Except NotAdded Action := do
  let kind ← (kindOf name).mapError .unknownKind
  match Action.obstacleIn? kind given with
  | some e => .error e
  | none => .ok (.make id kind given)

/-- A new action of the kind with a name, and the workflow with it at its end. -/
def enter (id name : Text) (given : List (Text × Json)) (w : Workflow) :
    Except NotAdded (Action × Workflow) :=
  (entered id name given).map fun a => (a, w.add a)

end Workflow

end PushButton
