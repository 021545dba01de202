import PushButton.Json.Value
import PushButton.Decimal.Notation

/-!
# Writing JSON

A value is written on one line, with a space after each comma and colon, or indented, with each
item and field on a line of its own. Quotes, backslashes and control characters are escaped; other
code points are written as they are, or all code points above 126 by their UTF-16 units.
-/

namespace PushButton

namespace Json

/-- Which code points are escaped besides quotes, backslashes and controls. -/
inductive Charset where
  /-- Every code point is written as it is. -/
  | full
  /-- Code points above 126 are escaped. -/
  | ascii
deriving DecidableEq, Repr

/-- A code point escaped by its UTF-16 units. -/
def codeEscape (s : Symbol) : Text :=
  let unit (n : Nat) : Text := "\\u" ++ Text.hex 4 n
  if s.code < 0x10000 then unit s.code
  else
    let n := s.code - 0x10000
    unit (0xD800 + n / 0x400) ++ unit (0xDC00 + n % 0x400)

/-- A code point between double quotes. -/
def escaped (charset : Charset) (s : Symbol) : Text :=
  match s with
  | .char '"' => "\\\""
  | .char '\\' => "\\\\"
  | .char '\n' => "\\n"
  | .char '\r' => "\\r"
  | .char '\t' => "\\t"
  | .char '\x0c' => "\\f"
  | .char '\x08' => "\\b"
  | _ =>
    if s.code < 0x20 then codeEscape s
    else if charset = .ascii && s.code > 126 then codeEscape s
    else [s]

/-- A text between double quotes. -/
def quoted (charset : Charset) (t : Text) : Text :=
  .char '"' :: t.flatMap (escaped charset) ++ [.char '"']

/-- A floating-point number; what is no finite number is written as a word. -/
def number (x : Float) : Text :=
  match Decimal.Magnitude.ofFloat x with
  | .finite d => d.written
  | .infinite negative => if negative then "-Infinity" else "Infinity"
  | .nan => "NaN"

/-- How a value is laid out. -/
structure Layout where
  /-- Which code points are escaped. -/
  charset : Charset := .full
  /-- The width of one level, where items and fields stand on lines of their own. -/
  indent : Option Nat := none
deriving DecidableEq, Repr

/-- The beginning of a line at a depth, or nothing on a single line. -/
def Layout.break (l : Layout) (depth : Nat) : Text :=
  match l.indent with
  | none => []
  | some width => .char '\n' :: List.replicate (width * depth) (.char ' ')

/-- What stands between two items at a depth. -/
def Layout.between (l : Layout) (depth : Nat) : Text :=
  match l.indent with
  | none => ", "
  | some _ => "," ++ l.break depth

mutual

/-- A value whose items stand at a depth. -/
def writeAt (l : Layout) (depth : Nat) : Json → Text
  | .null => "null"
  | .bool true => "true"
  | .bool false => "false"
  | .int n => Text.ofInt n
  | .float x => number x
  | .text t => quoted l.charset t
  | .array [] => "[]"
  | .array (item :: rest) =>
    "[" ++ l.break depth ++ writeAt l (depth + 1) item ++ writeItems l depth rest ++
      l.break (depth - 1) ++ "]"
  | .object [] => "\x7b\x7d"
  | .object ((name, value) :: rest) =>
    "\x7b" ++ l.break depth ++ quoted l.charset name ++ ": " ++ writeAt l (depth + 1) value ++
      writeFields l depth rest ++ l.break (depth - 1) ++ "\x7d"

/-- Items after the first one. -/
def writeItems (l : Layout) (depth : Nat) : List Json → Text
  | [] => []
  | item :: rest => l.between depth ++ writeAt l (depth + 1) item ++ writeItems l depth rest

/-- Fields after the first one. -/
def writeFields (l : Layout) (depth : Nat) : List (Text × Json) → Text
  | [] => []
  | (name, value) :: rest =>
    l.between depth ++ quoted l.charset name ++ ": " ++ writeAt l (depth + 1) value ++
      writeFields l depth rest

end

/-- A value written in a layout. -/
def write (l : Layout) (value : Json) : Text := writeAt l 1 value

/-- A value on one line, every code point as it is. -/
def line (value : Json) : Text := write {} value

/-- A value on one line, with code points above 126 escaped. -/
def asciiLine (value : Json) : Text := write { charset := .ascii } value

/-- A value with two spaces for each level. -/
def block (value : Json) : Text := write { indent := some 2 } value

end Json

end PushButton
