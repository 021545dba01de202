import PushButton.Bytes.Utf8
import PushButton.Data.Calendar
import PushButton.Json.Value
import PushButton.Decimal.Notation
import PushButton.Text.Quoted

/-!
# Data of a document

A document holds more kinds of values than JSON: bytes, days and times, sets, and mappings whose
keys are themselves values. Each value has a text, in which the texts inside lists and mappings are
quoted; only integers with too many digits have none, and values that are nested too deeply.
-/

namespace PushButton

/-- A value that a document can hold. -/
inductive Datum where
  /-- No value. -/
  | null
  /-- A truth value. -/
  | bool (value : Bool)
  /-- An integer. -/
  | int (value : Int)
  /-- A floating-point number. -/
  | float (value : Float)
  /-- A text. -/
  | text (value : Text)
  /-- Bytes. -/
  | bytes (value : Bytes)
  /-- A day. -/
  | date (value : Date)
  /-- A day and a time of day. -/
  | moment (value : Moment)
  /-- A list of values. -/
  | list (items : List Datum)
  /-- Two values. -/
  | pair (first second : Datum)
  /-- A set of values in the order in which they were given. -/
  | set (items : List Datum)
  /-- Keys with values, in order. -/
  | map (entries : List (Datum × Datum))
  /-- A list, or a mapping, that stands inside itself. -/
  | again (isMap : Bool)
deriving Repr, Inhabited

namespace Datum

mutual

/-- The datum of a JSON value. -/
def ofJson : Json → Datum
  | .null => .null
  | .bool b => .bool b
  | .int n => .int n
  | .float x => .float x
  | .text t => .text t
  | .array items => .list (ofItems items)
  | .object fields => .map (ofFields fields)

/-- The data of the items of an array. -/
def ofItems : List Json → List Datum
  | [] => []
  | item :: rest => ofJson item :: ofItems rest

/-- The entries of the fields of an object. -/
def ofFields : List (Text × Json) → List (Datum × Datum)
  | [] => []
  | (name, value) :: rest => (.text name, ofJson value) :: ofFields rest

end

/-- A floating-point number equals an integer. -/
def floatIsInt (x : Float) (n : Int) : Bool :=
  match Decimal.Magnitude.ofFloat x with
  | .finite d =>
    let r := Decimal.Ratio.ofDyadic d.significand d.exponent
    r.num = n.natAbs * r.den && (d.significand = 0 || d.negative = (n < 0))
  | _ => false

/-- The value of a number or truth value that is an integer. -/
def asInt? : Datum → Option Int
  | .int n => some n
  | .bool b => some (if b then 1 else 0)
  | _ => none

/-- Two scalars are the same key of a mapping: numbers and truth values are compared by value. -/
def sameKey (a b : Datum) : Bool :=
  match a, b with
  | .null, .null => true
  | .text s, .text t => s = t
  | .bytes s, .bytes t => s = t
  | .date s, .date t => s = t
  | .moment s, .moment t => s = t
  | .float x, .float y => x == y || (x != x && y != y)
  | .float x, b => (b.asInt?.map (floatIsInt x)).getD false
  | a, .float y => (a.asInt?.map (floatIsInt y)).getD false
  | a, b => a.asInt?.isSome && a.asInt? = b.asInt?

/-- A value put under a key of a mapping: a present key keeps its place and its form. -/
def putEntry (key value : Datum) : List (Datum × Datum) → List (Datum × Datum)
  | [] => [(key, value)]
  | (k, v) :: rest =>
    if sameKey k key then (k, value) :: rest else (k, v) :: putEntry key value rest

/-- The value under a text key of a mapping. -/
def entry? (name : Text) (entries : List (Datum × Datum)) : Option Datum :=
  (entries.find? fun (k, _) => sameKey k (.text name)).map (·.2)

/-- A span of time as whole days and seconds. -/
def spanQuoted (minutes : Int) : Text :=
  let days := minutes / 1440
  let seconds := minutes % 1440 * 60
  let parts : List Text :=
    (if days = 0 then [] else ["days=" ++ Text.ofInt days]) ++
      (if seconds = 0 then [] else ["seconds=" ++ Text.ofInt seconds])
  "datetime.timedelta(" ++ Text.join ", " parts ++ ")"

/-- An offset from universal time as it is written inside a moment. -/
def zoneQuoted (minutes : Int) : Text :=
  if minutes = 0 then "datetime.timezone.utc"
  else "datetime.timezone(" ++ spanQuoted minutes ++ ")"

/-- A day as it is written inside a list. -/
def dateQuoted (d : Date) : Text :=
  "datetime.date(" ++ Text.join ", " ([d.year, d.month, d.day].map Text.ofNat) ++ ")"

/-- A moment as it is written inside a list; seconds and microseconds of zero are left out. -/
def momentQuoted (m : Moment) : Text :=
  let fine := if m.micro ≠ 0 then [m.second, m.micro] else if m.second ≠ 0 then [m.second] else []
  let numbers := [m.date.year, m.date.month, m.date.day, m.hour, m.minute] ++ fine
  let zone := (m.offset.map fun z => ["tzinfo=" ++ zoneQuoted z]).getD []
  "datetime.datetime(" ++ Text.join ", " (numbers.map Text.ofNat ++ zone) ++ ")"

mutual

/-- A value as it is written inside a list. -/
def quoted : Datum → Text
  | .null => "None"
  | .bool b => if b then "True" else "False"
  | .int n => Text.ofInt n
  | .float x => Decimal.written x
  | .text t => Text.quoted t
  | .bytes b => Text.quotedBytes b
  | .date d => dateQuoted d
  | .moment m => momentQuoted m
  | .list items => "[" ++ Text.join ", " (quotedItems items) ++ "]"
  | .pair a b => "(" ++ quoted a ++ ", " ++ quoted b ++ ")"
  | .set [] => "set()"
  | .set (item :: rest) => "\x7b" ++ Text.join ", " (quoted item :: quotedItems rest) ++ "\x7d"
  | .map entries => "\x7b" ++ Text.join ", " (quotedEntries entries) ++ "\x7d"
  | .again isMap => if isMap then "\x7b...\x7d" else "[...]"

/-- The items of a list as they are written inside it. -/
def quotedItems : List Datum → List Text
  | [] => []
  | item :: rest => quoted item :: quotedItems rest

/-- The entries of a mapping as they are written inside it. -/
def quotedEntries : List (Datum × Datum) → List Text
  | [] => []
  | (key, value) :: rest => (quoted key ++ ": " ++ quoted value) :: quotedEntries rest

end

mutual

/-- A value holds an integer with more digits than are written, so that it has no text. -/
def isUnwritable : Datum → Bool
  | .int n => Text.isTooLong n
  | .list items | .set items => anyUnwritable items
  | .pair a b => a.isUnwritable || b.isUnwritable
  | .map entries => anyEntryUnwritable entries
  | _ => false

/-- One of the items of a list has no text. -/
def anyUnwritable : List Datum → Bool
  | [] => false
  | item :: rest => item.isUnwritable || anyUnwritable rest

/-- One of the entries of a mapping has no text. -/
def anyEntryUnwritable : List (Datum × Datum) → Bool
  | [] => false
  | (key, value) :: rest => key.isUnwritable || value.isUnwritable || anyEntryUnwritable rest

end

mutual

/-- How many lists, sets, mappings and pairs stand inside each other in a value. -/
def depth : Datum → Nat
  | .list items | .set items => depthOfItems items + 1
  | .pair a b => max a.depth b.depth + 1
  | .map entries => depthOfEntries entries + 1
  | _ => 0

/-- The depth of the deepest item. -/
def depthOfItems : List Datum → Nat
  | [] => 0
  | item :: rest => max item.depth (depthOfItems rest)

/-- The depth of the deepest key or value. -/
def depthOfEntries : List (Datum × Datum) → Nat
  | [] => 0
  | (key, value) :: rest => max (max key.depth value.depth) (depthOfEntries rest)

end

/-- The depth of the deepest values that are written. -/
def maxDepth : Nat := 960

/-- A value as text. -/
def shown : Datum → Text
  | .text t => t
  | .date d => d.shown
  | .moment m => m.shown
  | d => d.quoted

end Datum

end PushButton
