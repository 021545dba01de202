import PushButton.Data.Datum
import PushButton.Json.Writer
import PushButton.Log.Level
import PushButton.Data.Calendar

/-!
# Log records

A record carries the context of the scopes in which it is made: keys with values, an inner scope
hiding what an outer one gives. It is written as one line of JSON, in which the context stands
beside the parts of the record, or as a line for a person, in which only three keys are shown.
-/

namespace PushButton

/-- Keys with values that say where a record comes from. -/
abbrev Context := List (Text × Json)

/-- A context with another one inside it. -/
def Context.extend (outer inner : Context) : Context :=
  inner.foldl (fun c (key, value) => Json.put key value c) outer

/-- A record of the log. -/
structure Record where
  /-- How grave it is. -/
  level : Level
  /-- The name of the part of the program that makes it. -/
  logger : Text
  /-- What it says. -/
  message : Text
  /-- Where it comes from. -/
  context : Context := []
  /-- The failure that it tells about, where there is one. -/
  failure : Option Text := none
deriving Repr

namespace Record

/-- The keys that are shown to a person, in this order. -/
def shownKeys : List Text := ["run_id", "step_index", "action"]

/-- What a record says: the message, and the failure on a line of its own. -/
def said (r : Record) : Text :=
  match r.failure with
  | none => r.message
  | some t =>
    if r.message.getLast? = some (.char '\n') then r.message ++ t else r.message ++ "\n" ++ t

/-- A record for a person: what it says, and the shown keys. -/
def console (r : Record) : Text :=
  let parts := shownKeys.filterMap fun key =>
    (Json.lookup key r.context).map fun v => key ++ "=" ++ (Datum.ofJson v).shown
  if parts.isEmpty then r.said else r.said ++ "  (" ++ Text.join " " parts ++ ")"

/-- The parts of a record as fields; a key of the context hides a part of the same name. -/
def fields (r : Record) (time : Moment) : List (Text × Json) :=
  let parts : Context :=
    [("ts", .text time.stamp), ("level", .text r.level.name), ("logger", .text r.logger),
      ("msg", .text r.message)]
  let all := Context.extend parts r.context
  match r.failure with
  | none => all
  | some t => Json.put "exc_info" (.text t) all

/-- A record as one line of JSON. -/
def jsonLine (r : Record) (time : Moment) : Text := (Json.object (r.fields time)).line

/-- A record as it is listed: its level, the part of the program, and the line for a person. -/
def listed (r : Record) : Text := r.level.name ++ " " ++ r.logger ++ ": " ++ r.console

/-- The record passes a threshold. -/
def passes (threshold : Nat) (r : Record) : Bool := threshold ≤ r.level.number

end Record

/-- The name of the log of the program as a whole. -/
def mainLogger : Text := "button-workflow"

/-- The thresholds of the log: of all records, of those of libraries, and of what writes them. -/
structure Thresholds where
  /-- The threshold of all records. -/
  root : Nat
  /-- The threshold of what libraries tell, which is at least that of warnings and never changes. -/
  libraries : Nat
  /-- The thresholds of what writes the records. -/
  handlers : List Nat
deriving DecidableEq, Repr

namespace Thresholds

/-- The thresholds at the beginning; records are written to the terminal, and perhaps to a file. -/
def initial (level : Level) (toFile : Bool) : Thresholds :=
  ⟨level.number, max level.number 30, level.number :: if toFile then [level.number] else []⟩

/-- The thresholds after a change to a level by name; an unknown name stands for information. -/
def change (t : Thresholds) (name : Text) : Thresholds :=
  let n := (Level.threshold? (Text.upperAscii name)).getD 20
  { t with root := n, handlers := t.handlers.map fun _ => n }

/-- A record of a level is written. -/
def lets (t : Thresholds) (l : Level) : Bool :=
  t.root ≤ l.number && t.handlers.any (· ≤ l.number)

end Thresholds

end PushButton
