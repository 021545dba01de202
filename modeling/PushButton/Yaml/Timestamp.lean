import PushButton.Yaml.Flaw
import PushButton.Yaml.Tag

/-!
# Timestamps

A timestamp is a day, or a day with a time and an offset from universal time. Its parts are read
first and checked afterwards, the day before the time.
-/

namespace PushButton

namespace Yaml

/-- The parts of a timestamp, unchecked. -/
structure Stamp where
  /-- The year. -/
  year : Nat
  /-- The month. -/
  month : Nat
  /-- The day of the month. -/
  day : Nat
  /-- Hour, minute, second and microsecond, where there is a time. -/
  time : Option (Nat × Nat × Nat × Nat)
  /-- The offset in minutes, where it is given. -/
  offset : Option Int

/-- The longest run of digits, up to a number of them, and the rest. -/
def digitsUpTo (n : Nat) (t : Text) : Text × Text :=
  let k := min n (t.takeWhile Symbol.isDigit).length
  (t.take k, t.drop k)

/-- A number of at least and at most so many digits, and the rest. -/
def number? (least most : Nat) (t : Text) : Option (Nat × Text) :=
  let (ds, rest) := digitsUpTo most t
  if ds.length < least then none
  else some (Text.ofDigits 10 (ds.filterMap Symbol.digit?), rest)

/-- The rest behind one character. -/
def behind? (c : Char) : Text → Option Text
  | s :: rest => if s = .char c then some rest else none
  | [] => none

/-- The rest of a text behind white space. -/
def dropBlanks (t : Text) : Text := t.dropWhile fun s => s = .char ' ' || s = .char '\t'

/-- A fraction of a second in microseconds, further digits cut off, and the rest. -/
def fraction (t : Text) : Nat × Text :=
  match behind? '.' t with
  | none => (0, t)
  | some rest =>
    let ds := ((rest.takeWhile Symbol.isDigit).filterMap Symbol.digit?).take 6
    (Text.ofDigits 10 (ds ++ List.replicate (6 - ds.length) 0), rest.dropWhile Symbol.isDigit)

/-- The offset at the end of a timestamp. -/
def offset? (t : Text) : Option (Option Int) :=
  match dropBlanks t with
  | [] => if t.isEmpty then some none else none
  | [.char 'Z'] => some (some 0)
  | .char c :: rest =>
    if c = '+' || c = '-' then do
      let (hours, rest) ← number? 1 2 rest
      let minutes ← match rest with
        | [] => some 0
        | _ => do
          let rest ← behind? ':' rest
          let (m, rest) ← number? 2 2 rest
          if rest.isEmpty then some m else none
      let total : Int := hours * 60 + minutes
      some (some (if c = '-' then -total else total))
    else none
  | _ => none

/-- The time of a timestamp behind its day. -/
def time? (t : Text) : Option ((Nat × Nat × Nat × Nat) × Option Int) := do
  let start ← match t with
    | .char c :: rest =>
      if c = 'T' || c = 't' then some rest
      else if c = ' ' || c = '\t' then some (dropBlanks rest)
      else none
    | _ => none
  let (hour, rest) ← number? 1 2 start
  let rest ← behind? ':' rest
  let (minute, rest) ← number? 2 2 rest
  let rest ← behind? ':' rest
  let (second, rest) ← number? 2 2 rest
  let (micro, rest) := fraction rest
  let offset ← offset? rest
  some ((hour, minute, second, micro), offset)

/-- The parts of a timestamp. -/
def Stamp.ofText? (t : Text) : Option Stamp := do
  let (year, rest) ← number? 4 4 (dropLineFeed t)
  let rest ← behind? '-' rest
  let (month, rest) ← number? 1 2 rest
  let rest ← behind? '-' rest
  let (day, rest) ← number? 1 2 rest
  if rest.isEmpty then some ⟨year, month, day, none, none⟩
  else
    let (time, offset) ← time? rest
    some ⟨year, month, day, some time, offset⟩

/-- The first part of a timestamp that is out of its range. -/
def Stamp.defect? (s : Stamp) : Option TimePart :=
  let checks : List (Bool × TimePart) :=
    [(decide (s.year = 0), .year), (decide (s.month < 1 ∨ 12 < s.month), .month),
      (decide (s.day < 1 ∨ Date.daysIn s.year s.month < s.day), .day)]
  let timeChecks : List (Bool × TimePart) := match s.time with
    | none => []
    | some (hour, minute, second, _) =>
      [(decide (23 < hour), .hour), (decide (59 < minute), .minute),
        (decide (59 < second), .second)]
  let offsetChecks : List (Bool × TimePart) := match s.offset with
    | none => []
    | some m => [(decide (1440 ≤ m.natAbs), .offset m)]
  ((offsetChecks ++ checks ++ timeChecks).find? (·.1)).map (·.2)

/-- The day or moment that a text stands for. -/
def timestamp (t : Text) : Except Conversion Datum :=
  match Stamp.ofText? t with
  | none => .error .timestamp
  | some s =>
    match s.defect?, s.time with
    | some part, _ => .error (.time part)
    | none, none => .ok (.date ⟨s.year, s.month, s.day⟩)
    | none, some (hour, minute, second, micro) =>
      .ok (.moment ⟨⟨s.year, s.month, s.day⟩, hour, minute, second, micro, s.offset⟩)

end Yaml

end PushButton
