import PushButton.Cli.Shell
import PushButton.Surface.Frame
import PushButton.Workflow.Loaded

/-!
# Commands that show workflows and move them

A workflow is brought in from a file, written out, or shown as a table; workflow files are checked;
and the kinds of actions and the settings are listed.
-/

namespace PushButton

namespace Cli

namespace Job

/-- The workflow in a file. -/
def load (path : Text) : Job Workflow := do
  let p := Path.ofText path
  ofExcept ((Workflow.load (← files) p).mapError (·.failure p))

/-- What is said about a file. -/
def aboutFile (path text : Text) : Text := path ++ "  ->  " ++ text

/-- The workflow of a file is stored. -/
def bringIn (path : Text) : Job Unit := do
  let w ← tryCatch (load path) fun
    | .failed f =>
      if f.kind.isInvalid then do
        say (errorWord ++ aboutFile path f.message)
        exit 1
      else fail f
    | e => throw e
  store w
  say ("Imported " ++ Text.ofNat w.actions.length ++ " action(s) for button " ++ w.label.quoted)

/-- The stored workflow is written to a file, or printed. -/
def writeOut (path : Option Text) : Job Unit := do
  let w ← stored errorWord
  let text := w.dump (some 2)
  match path.filter fun t => !t.isEmpty with
  | none => say text
  | some path => say ("Wrote " ++ (← writeFile path (text ++ "\n")))

/-- A file is checked, and what comes of it is said. -/
def check (path : Text) : Job Bool :=
  tryCatch (do
    let w ← load path
    say ("OK  " ++ aboutFile path
      ("[" ++ w.label ++ "] (" ++ Text.ofNat w.actions.length ++ " actions)"))
    pure true) fun
    | .failed f =>
      if f.kind.isInvalid || f.kind = .file .missing then do
        say (errorWord ++ aboutFile path f.message)
        pure false
      else fail f
    | e => throw e

/-- Files are checked. -/
def checkAll (paths : List Text) : Job Unit := do
  let verdicts ← paths.mapM check
  exit (if verdicts.all id then 0 else 1)

/-- The row of an action in a table of actions. Its parameters are shown as they are; its id may
hold markup. -/
def actionRow (index : Nat) (a : Action) : List Text :=
  let params := (a.params.getD []).map fun (name, value) => name ++ "=" ++ value
  [Text.ofNat index, a.id, a.kind.name, Markup.escape (Text.join ", " params)]

/-- A workflow as a table of its actions. -/
def actionTable (w : Workflow) : Except MarkupError Text :=
  Frame.table ("Button: " ++ Markup.escape w.label) ["#", "id", "type", "params"]
    (w.actions.zipIdx.map fun (a, i) => actionRow i a)

/-- The failure of markup. -/
def markupFailure (e : MarkupError) : Failure := ⟨.markup, e.message⟩

/-- The stored workflow is shown. -/
def showStored : Job Unit := do
  let w ← stored unreadable
  if w.actions.isEmpty then say ("Button: " ++ w.label ++ "\nNo actions added yet.")
  else printText (← ofExcept ((actionTable w).mapError markupFailure))

/-- The kinds of actions are listed, each with the parameters that it reads. -/
def listKinds : Job Unit :=
  ActionKind.all.forM fun k =>
    let params : Text := if k.parameters.isEmpty then "-" else Text.join ", " k.parameters
    say (Text.padRight 20 k.name ++ " " ++ params)

/-- The settings are shown. -/
def showSettings : Job Unit := do say (Json.object (← get).settings.fields).block

end Job

end Cli

end PushButton
