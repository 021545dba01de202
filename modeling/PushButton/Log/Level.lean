import PushButton.Text.Symbol

/-!
# Log levels

Records are made on five levels. A threshold is the number of a level, and lets pass what is at
least as grave.
-/

namespace PushButton

/-- How grave a record is. -/
inductive Level where
  /-- Detail for finding faults. -/
  | debug
  /-- The ordinary course of things. -/
  | info
  /-- Something that was dealt with. -/
  | warning
  /-- Something that could not be dealt with. -/
  | error
  /-- The end of the program. -/
  | critical
deriving DecidableEq, Repr

namespace Level

/-- The levels in order. -/
def all : List Level := [.debug, .info, .warning, .error, .critical]

/-- The name of a level. -/
def name : Level → Text
  | .debug => "DEBUG"
  | .info => "INFO"
  | .warning => "WARNING"
  | .error => "ERROR"
  | .critical => "CRITICAL"

/-- The number of a level. -/
def number : Level → Nat
  | .debug => 10
  | .info => 20
  | .warning => 30
  | .error => 40
  | .critical => 50

/-- The level with a name. -/
def ofName? (t : Text) : Option Level := all.find? fun l => l.name = t

/-- The level with a name, or with its short name. -/
def ofWord? (t : Text) : Option Level := if t = "WARN" then some .warning else ofName? t

/-- The threshold with a name: a level, another word for one, or none at all. -/
def threshold? (t : Text) : Option Nat :=
  if t = "WARN" then some 30
  else if t = "FATAL" then some 50
  else if t = "NOTSET" then some 0
  else (ofName? t).map number

theorem ofName?_name (l : Level) : ofName? l.name = some l := by cases l <;> decide

end Level

end PushButton
