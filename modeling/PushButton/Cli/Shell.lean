import PushButton.Cli.Command
import PushButton.Cli.Console
import PushButton.Log.Journal
import PushButton.Text.Controls

/-!
# Jobs of a process

A process carries out one job: it prints, makes records, and reads and replaces the stored
workflow and other files. Records are also written to the log file, where the settings say so: those
of presses behind the presses, and all others as soon as they are made. A job may end early: with an
exit code, because of its arguments, or by a failure. What it has done by then stays done.
-/

namespace PushButton

namespace Cli

/-- What lasts from one process to the next. -/
structure Machine where
  /-- The file system. -/
  files : Files
  /-- The random numbers to come; then come zeros. -/
  draws : List Nat := []
  /-- The number of run ids that were given. -/
  runIds : Nat := 0
  /-- The number of action ids that were given. -/
  actionIds : Nat := 0

/-- What surrounds a process. -/
structure Surroundings where
  /-- The variables of the environment. -/
  environment : Environment
  /-- The standard input. -/
  input : Text := []
  /-- The message with which a call to a browser fails, where it fails, by the number of calls
  before it. -/
  faults : Nat → PageCall → Option Text := fun _ _ => none
  /-- The page of a browser says that it is closed. -/
  pageClosed : Bool := false
  /-- The time that is written to the log file. -/
  time : Moment := .ofMicros 0

/-- How a process ends. -/
inductive Ending where
  /-- With an exit code. -/
  | exit (code : Nat)
  /-- Because of the arguments of a command, or of the program as a whole. -/
  | usage (command : Option CommandSpec) (f : UsageFault)
  /-- By a failure that nothing deals with. -/
  | failed (f : Failure)
deriving DecidableEq, Repr

/-- A process at work. -/
structure Shell where
  /-- The machine. -/
  machine : Machine
  /-- The settings. -/
  settings : Settings
  /-- What surrounds the process. -/
  around : Surroundings
  /-- The thresholds of the log. -/
  thresholds : Thresholds
  /-- What has happened, the latest first. -/
  past : List Occurrence := []

/-- What happens is kept unless it is a record that does not pass the thresholds. -/
def isKept (t : Thresholds) (o : Occurrence) : Bool :=
  match o with
  | .logged r => t.lets r.level
  | _ => true

/-- A file system with the records among what happens in the log file, where the settings say so. -/
def Shell.journal (s : Shell) (fs : Files) (os : List Occurrence) : Files :=
  if s.settings.logToFile then
    fs.appendRecords s.settings.logFile s.around.time
      ((os.filter (isKept s.thresholds)).filterMap Occurrence.record?)
  else fs

/-- What a process does; a job that ends early keeps what it has done. -/
abbrev Job := ExceptT Ending (StateM Shell)

namespace Job

variable {α : Type}

/-- The job ends with an exit code. -/
def exit (code : Nat) : Job α := throw (.exit code)

/-- The job ends by a failure. -/
def fail (f : Failure) : Job α := throw (.failed f)

/-- A result; an error ends the job by a failure. -/
def ofExcept (r : Except Failure α) : Job α :=
  match r with
  | .ok a => pure a
  | .error f => fail f

/-- Things happen, in order. -/
def occur (os : List Occurrence) : Job Unit :=
  modify fun s => { s with
    machine := { s.machine with files := s.journal s.machine.files os }
    past := os.reverse ++ s.past }

/-- A text is printed as it is. -/
def printText (t : Text) : Job Unit :=
  match t.unprintable? with
  | some f => fail f
  | none => occur [.printed t]

/-- A line is printed, without control sequences. -/
def say (line : Text) : Job Unit := printText (Text.dropControls (line ++ "\n"))

/-- The file system. -/
def files : Job Files := do pure (← get).machine.files

/-- The file system is replaced. -/
def putFiles (fs : Files) : Job Unit :=
  modify fun s => { s with machine := { s.machine with files := fs } }

/-- The storage. -/
def shelf : Job Shelf := do pure ⟨.file (← get).settings.storageFile, ← files⟩

/-- The stored workflow, where there is one. That it is invalid is said with a wording, and ends
the job. -/
def stored? (wording : Text) : Job (Option Workflow) := do
  match (← shelf).loadWorkflow (← get).settings.configKey with
  | .ok w => pure w
  | .error f =>
    if f.kind.isInvalid then
      say (wording ++ f.message)
      exit 1
    else fail f

/-- How it is said that something is wrong. -/
def errorWord : Text := "ERR "

/-- How it is said that the stored workflow is invalid. -/
def unreadable : Text := errorWord ++ "stored configuration is unreadable: "

/-- How it is said that no workflow is stored. -/
def nothingStored : Text :=
  "No configuration found. Use `button-workflow add` or `button-workflow import` " ++
    "to set up your button workflow."

/-- The stored workflow; when there is none, that is said and ends the job. -/
def stored (wording : Text) : Job Workflow := do
  match ← stored? wording with
  | some w => pure w
  | none =>
    say nothingStored
    exit 1

/-- A workflow is stored. -/
def store (w : Workflow) : Job Unit := do
  let (result, shelf, records) := (← shelf).saveWorkflow (← get).settings.configKey w
  putFiles shelf.files
  occur (records.map .logged)
  ofExcept (result.mapError StorageError.failure)

/-- No workflow is stored any more. -/
def discardStored : Job Unit := do
  let (result, shelf) := (← shelf).remove (← get).settings.configKey
  putFiles shelf.files
  ofExcept (result.mapError StorageError.failure)

/-- A text is written to the file of a path, with the directories around it made. The path from the
root is given back. A text without bytes leaves an empty file. -/
def writeFile (path text : Text) : Job Text := do
  let fs ← files
  let p := (Path.ofText path).resolved ⟨true, fs.home⟩
  let (made, fs) := fs.makeDirectories p.parent
  putFiles fs
  ofExcept (made.mapError (·.failure))
  let bytes := Utf8.encode text
  putFiles (← ofExcept ((fs.write p (bytes.toOption.getD [])).mapError (·.failure)))
  let _ ← ofExcept (bytes.mapError (·.failure))
  pure p.shown

end Job

end Cli

end PushButton
