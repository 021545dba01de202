import PushButton.Text.Numeral

/-!
# Dates and times of day

The Gregorian calendar, extended backwards, with times of day in microseconds and an optional
offset from universal time in minutes.
-/

namespace PushButton

/-- A day of the calendar. -/
structure Date where
  /-- The year. -/
  year : Nat
  /-- The month, from one. -/
  month : Nat
  /-- The day of the month, from one. -/
  day : Nat
deriving DecidableEq, Repr

/-- A day and a time of day. -/
structure Moment where
  /-- The day. -/
  date : Date
  /-- The hour. -/
  hour : Nat
  /-- The minute. -/
  minute : Nat
  /-- The second. -/
  second : Nat
  /-- The microsecond. -/
  micro : Nat
  /-- The offset from universal time in minutes, where it is known. -/
  offset : Option Int
deriving DecidableEq, Repr

namespace Date

/-- A year of 366 days. -/
def isLeap (year : Nat) : Bool := year % 4 = 0 && (year % 100 ≠ 0 || year % 400 = 0)

/-- The number of days of a month. -/
def daysIn (year month : Nat) : Nat :=
  if month = 2 then if isLeap year then 29 else 28
  else if month = 4 || month = 6 || month = 9 || month = 11 then 30
  else 31

/-- The day with a number, counted from the first of January 1970. -/
def ofDays (days : Nat) : Date :=
  let z := days + 719468
  let era := z / 146097
  let dayOfEra := z % 146097
  let yearOfEra := (dayOfEra - dayOfEra / 1460 + dayOfEra / 36524 - dayOfEra / 146096) / 365
  let dayOfYear := dayOfEra - (365 * yearOfEra + yearOfEra / 4 - yearOfEra / 100)
  let m := (5 * dayOfYear + 2) / 153
  let month := if m < 10 then m + 3 else m - 9
  ⟨yearOfEra + era * 400 + (if month ≤ 2 then 1 else 0), month, dayOfYear - (153 * m + 2) / 5 + 1⟩

/-- The day with dashes between year, month and day. -/
def shown (d : Date) : Text :=
  Text.padded 4 d.year ++ "-" ++ Text.padded 2 d.month ++ "-" ++ Text.padded 2 d.day

end Date

namespace Moment

/-- The moment a number of microseconds after the beginning of 1970, in universal time. -/
def ofMicros (us : Nat) : Moment :=
  let seconds := us / 1000000
  let inDay := seconds % 86400
  ⟨.ofDays (seconds / 86400), inDay / 3600, inDay / 60 % 60, inDay % 60, us % 1000000, some 0⟩

/-- An offset with its sign, hours and minutes. -/
def offsetShown (minutes : Int) : Text :=
  (if minutes < 0 then "-" else "+") ++ Text.padded 2 (minutes.natAbs / 60) ++ ":" ++
    Text.padded 2 (minutes.natAbs % 60)

/-- The hours, minutes and seconds with colons between them. -/
def clockShown (m : Moment) : Text :=
  Text.padded 2 m.hour ++ ":" ++ Text.padded 2 m.minute ++ ":" ++ Text.padded 2 m.second

/-- The moment with a space between day and time, the fraction of the second where it is not zero
and the offset where it is known. -/
def shown (m : Moment) : Text :=
  let fraction : Text := if m.micro = 0 then [] else "." ++ Text.padded 6 m.micro
  m.date.shown ++ " " ++ m.clockShown ++ fraction ++ (m.offset.map offsetShown).getD []

/-- The moment to the millisecond, with the letter `T` between day and time. -/
def stamp (m : Moment) : Text :=
  m.date.shown ++ "T" ++ m.clockShown ++ "." ++ Text.padded 3 (m.micro / 1000) ++
    (m.offset.map offsetShown).getD []

/-- The moment to the microsecond without separators, in universal time. -/
def compact (m : Moment) : Text :=
  Text.padded 4 m.date.year ++ Text.padded 2 m.date.month ++ Text.padded 2 m.date.day ++ "T" ++
    Text.padded 2 m.hour ++ Text.padded 2 m.minute ++ Text.padded 2 m.second ++
    Text.padded 6 m.micro ++ "Z"

end Moment

end PushButton
