import PushButton.Cli.Arguments
import PushButton.Settings.Basic

/-!
# Commands

The commands of the program: they show and edit the stored workflow, bring it in from a file and
write it out, check workflow files, and press the button.
-/

namespace PushButton

namespace Cli

/-- A command. -/
inductive Command where
  /-- Shows the settings. -/
  | config
  /-- Lists the kinds of actions. -/
  | types
  /-- Shows the stored workflow. -/
  | show
  /-- Replaces the label. -/
  | label (t : Text)
  /-- Adds an action of a kind with parameters, each with its name and an equals sign. -/
  | add (kind : Text) (params : List Text)
  /-- Removes an action by id. -/
  | remove (id : Text)
  /-- Moves an action to the front. -/
  | moveUp (index : Int)
  /-- Moves an action to the back. -/
  | moveDown (index : Int)
  /-- Removes all actions, or the workflow as a whole. -/
  | clear (all : Bool)
  /-- Stores the workflow of a file. -/
  | load (path : Text)
  /-- Writes the stored workflow, to a file or to the output. -/
  | save (path : Option Text)
  /-- Checks files. -/
  | validate (paths : List Text)
  /-- Presses the button a number of times, and writes the final state of the surface to a file. -/
  | press (host : Option HostKind) (pacing : Option Int) (times : Nat) (path : Option Text)
  /-- Says how a command is used. -/
  | help (of : Text)
deriving DecidableEq, Repr

/-- The option that asks how a command is used. -/
def helpOption : OptionSpec := ⟨["-h", "--help"], none⟩

/-- The option for the level of the log. -/
def levelOption : OptionSpec :=
  ⟨["--log-level"], some (.anyCase (Level.all.map fun l => Text.lowerAscii l.name))⟩

/-- The options of the program as a whole. -/
def programOptions : List OptionSpec := [levelOption, ⟨["--version"], none⟩, helpOption]

/-- The commands with their options and arguments. -/
def specs : List CommandSpec :=
  [{ name := "config" }, { name := "types" }, { name := "show" },
    { name := "label", arguments := [⟨"TEXT", .text, false⟩] },
    { name := "add"
      options := [⟨["-p", "--param"], some .text⟩]
      arguments := [⟨"ACTION_TYPE", .text, false⟩] },
    { name := "remove", arguments := [⟨"ACTION_ID", .text, false⟩] },
    { name := "move-up", arguments := [⟨"INDEX", .integer, false⟩] },
    { name := "move-down", arguments := [⟨"INDEX", .integer, false⟩] },
    { name := "clear", options := [⟨["--all"], none⟩] },
    { name := "import", arguments := [⟨"PATH", .file true, false⟩] },
    { name := "export", options := [⟨["-o", "--output"], some (.file false)⟩] },
    { name := "validate", arguments := [⟨"TARGETS...", .file false, true⟩] },
    { name := "run"
      options :=
        [⟨["--host"], some (.word (HostKind.all.map HostKind.name))⟩,
          ⟨["--pacing-ms"], some .integer⟩, ⟨["--times"], some (.atLeast 1)⟩,
          ⟨["--json-out"], some (.file false)⟩] }]

/-- The command with a name; every command can say how it is used. -/
def spec? (name : Text) : Option CommandSpec :=
  (specs.find? fun c => c.name = name).map fun c => { c with options := c.options ++ [helpOption] }

/-- The command that checked arguments describe. -/
def Command.ofArguments (name : Text) (a : Arguments) : Command :=
  let first := a.others.headD []
  let index := (integer? first).getD 0
  if (a.value? "--help").isSome then .help name
  else if name = "config" then .config
  else if name = "types" then .types
  else if name = "show" then .show
  else if name = "label" then .label first
  else if name = "add" then .add first (a.values "-p")
  else if name = "remove" then .remove first
  else if name = "move-up" then .moveUp index
  else if name = "move-down" then .moveDown index
  else if name = "clear" then .clear (a.value? "--all").isSome
  else if name = "import" then .load first
  else if name = "export" then .save (a.value? "-o")
  else if name = "validate" then .validate a.others
  else
    .press ((a.value? "--host").bind fun t => HostKind.all.find? fun h => h.name = t)
      ((a.value? "--pacing-ms").bind integer?)
      (((a.value? "--times").bind integer?).getD 1).toNat (a.value? "--json-out")

/-- The arguments of the program as a whole. -/
structure Invocation where
  /-- The level of the log, where it is given. -/
  level : Option Text
  /-- The command. -/
  command : CommandSpec
  /-- The arguments of the command. -/
  arguments : List Text
deriving DecidableEq, Repr

/-- What is asked for: a command, or help with the program as a whole. -/
inductive Asked where
  /-- A command. -/
  | command (i : Invocation)
  /-- How the program is used; it is an error when that was not asked for. -/
  | help (asked : Bool)
deriving DecidableEq, Repr

/-- The invocation that arguments stand for. A name that begins with a dash is taken for an
option, so that it is reported as one. -/
def Invocation.read (args : List Text) : Except UsageFault Asked :=
  match readOptions programOptions false args with
  | .error f => .error f
  | .ok a =>
    match a.options.findSome? fun p => a.optionFault? ⟨[], [], []⟩ p.1 with
    | some f => .error f
    | none =>
      if (a.value? "--help").isSome || (a.value? "--version").isSome then .ok (.help true)
      else
        match a.others with
        | [] => .ok (.help false)
        | name :: rest =>
          match spec? name with
          | some c => .ok (.command ⟨a.value? "--log-level", c, rest⟩)
          | none =>
            let again :=
              if holdsOptions name then readOptions programOptions false a.others else .ok a
            match again with
            | .error f => .error f
            | .ok _ =>
              .error (.unknownCommand name (Text.similar name (specs.map CommandSpec.name)))

end Cli

end PushButton
