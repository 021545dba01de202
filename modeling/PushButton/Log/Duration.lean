import PushButton.Log.Record
import PushButton.Decimal.Notation

/-!
# Durations

Durations are measured in whole milliseconds of a clock that never goes back; what it shows is
rounded down. They are written in milliseconds below a second, and in seconds with three places
above.
-/

namespace PushButton

namespace Duration

/-- Milliseconds of a number of nanoseconds. -/
def ofNanos (ns : Int) : Int := Int.fdiv ns 1000000

/-- The time between two readings of the clock, at least zero. -/
def between (start now : Int) : Nat := (now - start).toNat

/-- A number of seconds that is given in milliseconds. -/
def seconds (ms : Int) : Float := Float.ofInt ms / 1000

/-- A duration for a person. -/
def shown (ms : Int) : Text :=
  if ms < 1000 then Text.ofInt ms ++ " ms" else Decimal.fixed 3 (seconds ms) ++ " s"

/-- The record about how long something took; an unknown level stands for detail. -/
def record (label : Text) (level : Text) (start now : Int) : Record :=
  { level := (Level.ofWord? (Text.upperAscii level)).getD .debug
    logger := "button_workflow.utils.timing"
    message := label ++ " took " ++ shown (between start now) }

end Duration

/-- A clock that is stopped until it is started. -/
structure Stopwatch where
  /-- The reading of the clock at the start. -/
  start : Option Int := none
deriving DecidableEq, Repr

namespace Stopwatch

/-- The time since the start; zero when it was not started. -/
def elapsed (w : Stopwatch) (now : Int) : Nat :=
  match w.start with
  | none => 0
  | some s => Duration.between s now

end Stopwatch

end PushButton
