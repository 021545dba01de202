import PushButton.Log.Record
import PushButton.Workflow.Loaded

/-!
# Surveys of workflow files

All workflow files below a directory are read, in the order of the names on the way to them, and a
record is made about each of them: that it holds a workflow, or why it holds none. A survey ends
early when a file cannot be read at all.
-/

namespace PushButton

namespace Survey

/-- The name of the part of the program that makes surveys. -/
def logger : Text := "validate_workflows"

/-- The endings of the names of workflow files. -/
def endings : List Text := [".json", ".yaml", ".yml"]

/-- A name with one of the endings. -/
def isWorkflowName (name : Text) : Bool := endings.any fun e => e.isSuffixOf name

/-- The order of names on the way to files. -/
def before (a b : List Text) : Bool :=
  match a, b with
  | [], _ => true
  | _ :: _, [] => false
  | x :: xs, y :: ys => if x = y then before xs ys else Text.le x y

/-- The places below a directory that have the name of a workflow file, in order. Directories with
such a name are among them. -/
def places (fs : Files) (root : Path) : List Path :=
  match fs.locate root with
  | .error _ => []
  | .ok l =>
    let names := (fs.below l).filterMap fun (names, _) =>
      if isWorkflowName (names.getLast?.getD []) then some names else none
    (names.mergeSort before).map fun names => { root with names := root.names ++ names }

/-- A record of a survey. -/
def record (level : Level) (message : Text) : Record :=
  { level := level, logger := logger, message := message }

/-- What a survey has found: its records, and the numbers of good and of bad files. -/
structure Findings where
  /-- The records. -/
  records : List Record := []
  /-- The number of files that hold a workflow. -/
  good : Nat := 0
  /-- The number of files that hold none. -/
  bad : Nat := 0

/-- The findings after one more file; what cannot be read at all stops the survey. -/
def visit (fs : Files) (found : Findings) (p : Path) : Except Failure Findings :=
  match Workflow.load fs p with
  | .ok w =>
    let message : Text :=
      "OK  " ++ p.shown ++ " (" ++ Text.ofNat w.actions.length ++ " actions)"
    .ok { found with records := found.records ++ [record .info message], good := found.good + 1 }
  | .error e =>
    let f := e.failure p
    if f.kind.isInvalid then
      let message : Text := "ERR " ++ p.shown ++ ": " ++ f.message
      .ok { found with records := found.records ++ [record .error message], bad := found.bad + 1 }
    else .error f

/-- The findings of a survey of some files, and the failure that has stopped it, if one has. -/
def visitAll (fs : Files) : Findings → List Path → Findings × Option Failure
  | found, [] => (found, none)
  | found, p :: rest =>
    match visit fs found p with
    | .error f => (found, some f)
    | .ok found => visitAll fs found rest

/-- A survey of a directory: its records, and whether no file was bad, unless it was stopped. -/
def run (fs : Files) (root : Path) : List Record × Except Failure Bool :=
  if !fs.has root then
    ([record .error ("No " ++ root.shown ++ "/ directory found.")], .ok false)
  else
    match visitAll fs {} (places fs root) with
    | (found, some f) => (found.records, .error f)
    | (found, none) =>
      let message : Text :=
        "Validated " ++ Text.ofNat found.good ++ "/" ++ Text.ofNat (found.good + found.bad) ++
          " workflow(s)."
      (found.records ++ [record .info message], .ok (found.bad = 0))

end Survey

end PushButton
