import PushButton.Json.Value
import PushButton.Text.Blank
import PushButton.Decimal.Notation

/-!
# Reading JSON

A JSON text is one value with white space around it. Besides the numbers of the standard the words
`NaN`, `Infinity` and `-Infinity` are read, and an escape may name half of a surrogate pair. A text
that is refused is refused at a position, which the message gives as line, column and offset; only
integers with too many digits and lists and objects that are nested too deeply are refused without
one.

The functions below walk the list of symbols that are left; a flaw keeps how many are left at its
place, from which the position is computed at the end.
-/

namespace PushButton

namespace Json

/-- What a text that is no JSON is missing. -/
inductive Fault where
  /-- A value is expected. -/
  | value
  /-- The name of a field is expected. -/
  | name
  /-- A colon is expected. -/
  | colon
  /-- A comma is expected. -/
  | comma
  /-- Something follows the value. -/
  | extra
  /-- A quoted text is not closed. -/
  | unterminated
  /-- A control character stands inside a quoted text. -/
  | control
  /-- A backslash is followed by no letter of an escape. -/
  | escape
  /-- The letter `u` is not followed by four hexadecimal digits. -/
  | codeEscape
  /-- The text begins with a byte order mark. -/
  | mark
  /-- An integer has more digits than are read, which is `digits`. -/
  | size (digits : Nat)
  /-- A list, or an object, stands inside more of them than are read. -/
  | depth (isObject : Bool)
deriving DecidableEq, Repr

/-- A fault and the number of symbols that are left at its place. -/
structure Flaw where
  /-- What is wrong. -/
  fault : Fault
  /-- The number of symbols from the place to the end of the text. -/
  left : Nat
deriving DecidableEq, Repr

/-- A fault and its position in the text. -/
structure ParseError where
  /-- What is wrong. -/
  fault : Fault
  /-- The number of symbols in front of the place. -/
  offset : Nat
  /-- The number of the line, from one. -/
  line : Nat
  /-- The number of the column, from one. -/
  column : Nat
deriving DecidableEq, Repr

/-- The wording of a fault. -/
def Fault.message : Fault → Text
  | .value => "Expecting value"
  | .name => "Expecting property name enclosed in double quotes"
  | .colon => "Expecting ':' delimiter"
  | .comma => "Expecting ',' delimiter"
  | .extra => "Extra data"
  | .unterminated => "Unterminated string starting at"
  | .control => "Invalid control character at"
  | .escape => "Invalid \\escape"
  | .codeEscape => "Invalid \\uXXXX escape"
  | .mark => "Unexpected UTF-8 BOM (decode using utf-8-sig)"
  | .size digits => Text.tooManyDigits (some digits)
  | .depth isObject =>
    "maximum recursion depth exceeded while decoding a JSON " ++
      (if isObject then "object" else "array" : Text) ++ " from a unicode string"

/-- The syntax of the text is at fault, rather than the size of a number or the depth of a value. -/
def ParseError.isSyntax (e : ParseError) : Bool :=
  match e.fault with
  | .size _ | .depth _ => false
  | _ => true

/-- The depth of a value is at fault. -/
def ParseError.isDepth (e : ParseError) : Bool :=
  match e.fault with
  | .depth _ => true
  | _ => false

/-- The message about a text that is no JSON. -/
def ParseError.message (e : ParseError) : Text :=
  if e.isSyntax then
    e.fault.message ++ ": line " ++ Text.ofNat e.line ++ " column " ++ Text.ofNat e.column ++
      " (char " ++ Text.ofNat e.offset ++ ")"
  else e.fault.message

/-- The position of a flaw in its text. -/
def Flaw.inText (text : Text) (flaw : Flaw) : ParseError :=
  let before := text.take (text.length - flaw.left)
  let line := before.reverse.takeWhile (· != .char '\n')
  ⟨flaw.fault, before.length, before.count (.char '\n') + 1, line.length + 1⟩

/-- What is left after white space. -/
def skipBlank (t : Text) : Text := t.dropWhile Symbol.isJsonBlank

/-- The number that four hexadecimal digits stand for. -/
def hexFour? (a b c d : Symbol) : Option Nat := do
  let ds ← [a, b, c, d].mapM Symbol.hexDigit?
  some (Text.ofDigits 16 ds)

/-- The code point of two halves of a surrogate pair. -/
def joinHalves (high low : Symbol) : Symbol :=
  .ofCode (0x10000 + (high.code - 0xD800) * 0x400 + (low.code - 0xDC00))

/-- What the letter after a backslash stands for. -/
def unescape? : Symbol → Option Symbol
  | .char '"' => some (.char '"')
  | .char '\\' => some (.char '\\')
  | .char '/' => some (.char '/')
  | .char 'b' => some (.char '\x08')
  | .char 'f' => some (.char '\x0c')
  | .char 'n' => some (.char '\n')
  | .char 'r' => some (.char '\r')
  | .char 't' => some (.char '\t')
  | _ => none

/-- The rest of a quoted text; `opening` symbols were left at its first quote. An escape with a
code needs at least one more symbol after its digits, and so does the second escape of a pair. -/
def readQuoted (opening : Nat) : Text → Except Flaw (Text × Text)
  | [] => .error ⟨.unterminated, opening⟩
  | [.char '\\'] => .error ⟨.unterminated, opening⟩
  | .char '\\' :: .char 'u' :: a :: b :: c :: d :: next :: rest =>
    match hexFour? a b c d with
    | none => .error ⟨.codeEscape, rest.length + 6⟩
    | some n =>
      let single := (readQuoted opening (next :: rest)).map fun (t, r) => (Symbol.ofCode n :: t, r)
      if (Symbol.ofCode n).isHighHalf && next = .char '\\' then
        match rest with
        | .char 'u' :: e :: f :: g :: h :: last :: rest' =>
          match hexFour? e f g h with
          | none => .error ⟨.codeEscape, rest'.length + 6⟩
          | some m =>
            if (Symbol.ofCode m).isLowHalf then
              (readQuoted opening (last :: rest')).map fun (t, r) =>
                (joinHalves (.ofCode n) (.ofCode m) :: t, r)
            else single
        | _ => single
      else single
  | .char '\\' :: .char 'u' :: rest => .error ⟨.codeEscape, rest.length + 1⟩
  | .char '\\' :: x :: rest =>
    match unescape? x with
    | none => .error ⟨.escape, rest.length + 2⟩
    | some s => (readQuoted opening rest).map fun (t, r) => (s :: t, r)
  | .char '"' :: rest => .ok ([], rest)
  | x :: rest =>
    if x.code < 0x20 then .error ⟨.control, rest.length + 1⟩
    else (readQuoted opening rest).map fun (t, r) => (x :: t, r)

/-- The values of the digits at the beginning of a text, and the rest. -/
def digitsOf (t : Text) : List Nat × Text :=
  ((t.takeWhile Symbol.isDigit).filterMap Symbol.digit?, t.dropWhile Symbol.isDigit)

/-- The digits of a fraction after its point, where a digit follows. -/
def fractionOf : Text → Option (List Nat × Text)
  | .char '.' :: x :: rest => if x.isDigit then some (digitsOf (x :: rest)) else none
  | _ => none

/-- The exponent after the letter `e`, where digits follow. -/
def exponentOf : Text → Option (Int × Text)
  | x :: rest =>
    if x = .char 'e' || x = .char 'E' then
      let (negative, digits) := Text.signed rest
      let (ds, rest) := digitsOf digits
      let n : Int := Text.ofDigits 10 ds
      if ds.isEmpty then none else some (if negative then -n else n, rest)
    else none
  | [] => none

/-- The digits in front of the point: a zero alone, or a digit other than zero and more. -/
def wholeOf : Text → Option (List Nat × Text)
  | .char '0' :: rest => some ([0], rest)
  | x :: rest => if x.isDigit then some (digitsOf (x :: rest)) else none
  | [] => none

/-- A number at the beginning of a text. -/
def readNumber (t : Text) : Except Flaw (Json × Text) :=
  let (negative, digits) := match t with
    | .char '-' :: rest => (true, rest)
    | _ => (false, t)
  match wholeOf digits with
  | none => .error ⟨.value, t.length⟩
  | some (whole, rest) =>
    let fraction := fractionOf rest
    let (fs, rest) := fraction.getD ([], rest)
    let exponent := exponentOf rest
    let (e, rest) := exponent.getD (0, rest)
    if fraction.isNone && exponent.isNone then
      if whole.length > Text.maxDigits then .error ⟨.size whole.length, t.length⟩
      else
        let n : Int := Text.ofDigits 10 whole
        .ok (.int (if negative then -n else n), rest)
    else
      .ok (.float (Decimal.toFloat negative (Text.ofDigits 10 (whole ++ fs)) (e - fs.length)), rest)

/-- A value that is written as a word. -/
def readWord (t : Text) : Option (Json × Text) :=
  let words : List (Text × Json) :=
    [("null", .null), ("true", .bool true), ("false", .bool false), ("NaN", .float (0 / 0)),
      ("Infinity", .float (1 / 0)), ("-Infinity", .float (-(1 / 0)))]
  words.findSome? fun (word, value) => (t.after? word).map fun rest => (value, rest)

/-- How many lists and objects may stand inside each other. -/
def maxDepth : Nat := 960

mutual

/-- A value at the beginning of a text, in which lists and objects may be nested up to a depth. -/
def readValue (room : Nat) : Nat → Text → Except Flaw (Json × Text)
  | 0, t => .error ⟨.value, t.length⟩
  | fuel + 1, t =>
    match t with
    | .char '"' :: rest => (readQuoted t.length rest).map fun (s, r) => (.text s, r)
    | .char '[' :: rest =>
      if room = 0 then .error ⟨.depth false, t.length⟩
      else
        match skipBlank rest with
        | .char ']' :: rest => .ok (.array [], rest)
        | rest => (readItems (room - 1) fuel rest).map fun (items, r) => (.array items, r)
    | .char '\x7b' :: rest =>
      if room = 0 then .error ⟨.depth true, t.length⟩
      else
        match skipBlank rest with
        | .char '\x7d' :: rest => .ok (.object [], rest)
        | rest =>
          (readFields (room - 1) fuel rest).map fun (fields, r) => (.object (collect fields), r)
    | _ =>
      match readWord t with
      | some found => .ok found
      | none => readNumber t

/-- The items of an array from the first one on, and its closing bracket. -/
def readItems (room : Nat) : Nat → Text → Except Flaw (List Json × Text)
  | 0, t => .error ⟨.value, t.length⟩
  | fuel + 1, t =>
    match readValue room fuel t with
    | .error e => .error e
    | .ok (item, rest) =>
      match skipBlank rest with
      | .char ']' :: rest => .ok ([item], rest)
      | .char ',' :: rest =>
        (readItems room fuel (skipBlank rest)).map fun (items, r) => (item :: items, r)
      | rest => .error ⟨.comma, rest.length⟩

/-- The fields of an object from the first one on, and its closing brace. -/
def readFields (room : Nat) : Nat → Text → Except Flaw (List (Text × Json) × Text)
  | 0, t => .error ⟨.name, t.length⟩
  | fuel + 1, t =>
    match t with
    | .char '"' :: rest =>
      match readQuoted t.length rest with
      | .error e => .error e
      | .ok (name, rest) =>
        match skipBlank rest with
        | .char ':' :: rest =>
          match readValue room fuel (skipBlank rest) with
          | .error e => .error e
          | .ok (value, rest) =>
            match skipBlank rest with
            | .char '\x7d' :: rest => .ok ([(name, value)], rest)
            | .char ',' :: rest =>
              (readFields room fuel (skipBlank rest)).map fun (fields, r) =>
                ((name, value) :: fields, r)
            | rest => .error ⟨.comma, rest.length⟩
        | rest => .error ⟨.colon, rest.length⟩
    | _ => .error ⟨.name, t.length⟩

end

/-- The value that a text holds, or its first flaw. -/
def readText (t : Text) : Except Flaw Json :=
  match t with
  | .char '\ufeff' :: _ => .error ⟨.mark, t.length⟩
  | _ =>
    match readValue maxDepth (2 * t.length + 2) (skipBlank t) with
    | .error e => .error e
    | .ok (value, rest) =>
      let rest := skipBlank rest
      if rest.isEmpty then .ok value else .error ⟨.extra, rest.length⟩

/-- The value that a text holds. -/
def parse (t : Text) : Except ParseError Json := (readText t).mapError (Flaw.inText t)

end Json

end PushButton
