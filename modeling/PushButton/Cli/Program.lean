import PushButton.Cli.Editing
import PushButton.Cli.Press

/-!
# The program

A process reads its arguments and the settings and carries out one command. What is wrong with the
arguments of the program is found before the settings are read, and what is wrong with the arguments
of the command afterwards.
-/

namespace PushButton

namespace Cli

/-- The job of a command. -/
def Command.job : Command → Job Unit
  | .config => Job.showSettings
  | .types => Job.listKinds
  | .show => Job.showStored
  | .label t => Job.label t
  | .add kind params => Job.add kind params
  | .remove id => Job.remove id
  | .moveUp index => Job.moveUp index
  | .moveDown index => Job.moveDown index
  | .clear all => if all then Job.clearAll else Job.clear
  | .load path => Job.bringIn path
  | .save path => Job.writeOut path
  | .validate paths => Job.checkAll paths
  | .press host pacing times path => Job.press host pacing times path
  | .help name => Job.say ("Usage: " ++ usage (spec? name))

/-- What a process leaves behind. -/
structure Outcome where
  /-- How it has ended. -/
  ending : Ending
  /-- The machine afterwards. -/
  machine : Machine
  /-- What has happened, in order; of the records those that pass the thresholds of the log. -/
  occurrences : List Occurrence

namespace Outcome

/-- What a process prints. -/
def output (o : Outcome) : Text := (o.occurrences.filterMap Occurrence.text?).flatten

/-- The records of a process. -/
def records (o : Outcome) : List Record := o.occurrences.filterMap Occurrence.record?

/-- The exit code of a process. -/
def code (o : Outcome) : Nat :=
  match o.ending with
  | .exit code => code
  | .usage _ _ => 2
  | .failed _ => 1

/-- What a process reports about its arguments. -/
def report (o : Outcome) : Text :=
  match o.ending with
  | .usage c f => Text.dropControls (f.report c)
  | _ => []

/-- A process that ends before its command begins. -/
def nothing (m : Machine) (ending : Ending) : Outcome := ⟨ending, m, []⟩

end Outcome

/-- A job carried out to its end. -/
def carryOut (job : Job Unit) (s : Shell) : Outcome :=
  let (result, s) := (job.run).run s
  let ending := match result with
    | .ok () => .exit 0
    | .error e => e
  ⟨ending, s.machine, s.past.reverse.filter (isKept s.thresholds)⟩

/-- The state in which a process begins with its command. A level that is given with the command
changes the thresholds of the log. -/
def Shell.start (m : Machine) (around : Surroundings) (settings : Settings) (fs : Files)
    (level : Option Text) : Shell :=
  let thresholds := Thresholds.initial settings.logLevel settings.logToFile
  { machine := { m with files := fs }
    settings := settings
    around := around
    thresholds := (level.map thresholds.change).getD thresholds }

/-- The job that the arguments of a command describe. -/
def Invocation.job (i : Invocation) (fs : Files) : Job Unit :=
  match Arguments.read fs i.command i.arguments with
  | .error f => throw (.usage (some i.command) f)
  | .ok a => (Command.ofArguments i.command.name a).job

/-- A process with its arguments. -/
def run (m : Machine) (around : Surroundings) (args : List Text) : Outcome :=
  match Invocation.read args with
  | .error f => .nothing m (.usage none f)
  | .ok (.help asked) =>
    ⟨.exit (if asked then 0 else 2), m, [.printed ("Usage: " ++ usage none ++ "\n")]⟩
  | .ok (.command i) =>
    match Settings.prepare m.files around.environment with
    | (.error f, fs) => .nothing { m with files := fs } (.failed f)
    | (.ok settings, fs) => carryOut (i.job fs) (.start m around settings fs i.level)

end Cli

end PushButton
