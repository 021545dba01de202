import PushButton.Data.Datum

/-!
# Flaws of a YAML document

A document is malformed or nested too deeply, or one of its scalars has a type and is no value of
that type. All malformed documents are refused alike; a scalar that cannot be converted is named.
-/

namespace PushButton

namespace Yaml

/-- A part of a day or time that is out of its range. -/
inductive TimePart where
  /-- The year zero. -/
  | year
  /-- A month outside of one to twelve. -/
  | month
  /-- A day that the month does not have. -/
  | day
  /-- An hour past 23. -/
  | hour
  /-- A minute past 59. -/
  | minute
  /-- A second past 59. -/
  | second
  /-- An offset of a day or more, in minutes. -/
  | offset (minutes : Int)
deriving DecidableEq, Repr

/-- Why a scalar is no value of its type. -/
inductive Conversion where
  /-- The text is no integer of a base. -/
  | integer (base : Nat) (text : Text)
  /-- An integer has more digits than are read. -/
  | tooManyDigits (count : Nat)
  /-- The text is no floating-point number. -/
  | float (text : Text)
  /-- There is no text after the sign of a number, or none at all. -/
  | emptyNumber
  /-- A floating-point number is given in more groups than one holds. -/
  | tooManyGroups
  /-- The text is no truth value. -/
  | bool (text : Text)
  /-- The text is no day and no moment. -/
  | timestamp
  /-- A mapping stands for the text of a day or moment. -/
  | mappedTimestamp
  /-- A part of a day or moment is out of its range. -/
  | time (part : TimePart)
  /-- An escape gives a number beyond the last code point. -/
  | codePoint (n : Nat)
deriving DecidableEq, Repr

/-- Why a document holds no data. -/
inductive Flaw where
  /-- The document is malformed. -/
  | malformed
  /-- The document is nested too deeply. -/
  | tooDeep
  /-- A scalar cannot be converted. -/
  | conversion (c : Conversion)
deriving DecidableEq, Repr

/-- The wording about a part that is out of its range. -/
def TimePart.message : TimePart → Text
  | .year => "year 0 is out of range"
  | .month => "month must be in 1..12"
  | .day => "day is out of range for month"
  | .hour => "hour must be in 0..23"
  | .minute => "minute must be in 0..59"
  | .second => "second must be in 0..59"
  | .offset minutes =>
    "offset must be a timedelta strictly between -timedelta(hours=24) and timedelta(hours=24), not "
      ++ Datum.spanQuoted minutes ++ "."

/-- The wording about a scalar that cannot be converted. -/
def Conversion.message : Conversion → Text
  | .integer base t =>
    "invalid literal for int() with base " ++ Text.ofNat base ++ ": " ++ t.quoted
  | .tooManyDigits count => Text.tooManyDigits (some count)
  | .float t => "could not convert string to float: " ++ t.quoted
  | .emptyNumber => "string index out of range"
  | .tooManyGroups => "int too large to convert to float"
  | .bool t => t.quoted
  | .timestamp => "'NoneType' object has no attribute 'groupdict'"
  | .mappedTimestamp => "expected string or bytes-like object, got 'list'"
  | .time part => part.message
  | .codePoint n =>
    if n < 0x80000000 then "chr() arg not in range(0x110000)"
    else "Python int too large to convert to C int"

end Yaml

end PushButton
