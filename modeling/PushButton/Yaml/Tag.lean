import PushButton.Text.Pattern
import PushButton.Text.Numeral

/-!
# Tags

The tag of a node says what kind of value it stands for. A plain scalar without a tag gets one from
its text: the first of the patterns below that it matches, looked for among those that its first
character allows.
-/

namespace PushButton

namespace Yaml

/-- The kind of value that a node stands for. -/
inductive Tag where
  /-- No value. -/
  | null
  /-- A truth value. -/
  | bool
  /-- An integer. -/
  | int
  /-- A floating-point number. -/
  | float
  /-- Bytes in base 64. -/
  | binary
  /-- A day or a moment. -/
  | timestamp
  /-- A list of pairs with keys. -/
  | orderedMap
  /-- A list of pairs. -/
  | pairs
  /-- A set. -/
  | set
  /-- A text. -/
  | text
  /-- A list. -/
  | sequence
  /-- A mapping. -/
  | mapping
  /-- The key of a mapping whose entries are taken over. -/
  | merge
  /-- The key of the value of a mapping that stands for a scalar. -/
  | value
  /-- A kind that is not known. -/
  | other
deriving DecidableEq, Repr

namespace Tag

/-- What the names of the standard tags begin with. -/
def standard : Text := "tag:yaml.org,2002:"

/-- The names of the standard tags. -/
def names : List (Text × Tag) :=
  [("null", .null), ("bool", .bool), ("int", .int), ("float", .float), ("binary", .binary),
    ("timestamp", .timestamp), ("omap", .orderedMap), ("pairs", .pairs), ("set", .set),
    ("str", .text), ("seq", .sequence), ("map", .mapping), ("merge", .merge), ("value", .value)]

/-- The tag that is written as a text. -/
def ofText (t : Text) : Tag :=
  ((t.after? standard).bind fun name => (names.find? (·.1 = name)).map (·.2)).getD .other

/-- The value of such a node can be no key, because it can grow. -/
def isCollection : Tag → Bool
  | .orderedMap | .pairs | .set | .sequence | .mapping => true
  | _ => false

end Tag

open Pattern in
/-- A digit or an underscore. -/
def digitOrGap : Pattern := (digit).or (char '_')

open Pattern in
/-- Groups of two digits below sixty, each after a colon. -/
def sixtieths : Pattern := many (row [char ':', maybe (anyOf "012345"), digit])

open Pattern in
/-- A sign or nothing. -/
def maybeSign : Pattern := maybe (anyOf "-+")

open Pattern in
/-- An exponent with its sign, or nothing. -/
def maybeExponent : Pattern := maybe (row [anyOf "eE", anyOf "-+", many digit])

open Pattern in
/-- Truth values. -/
def boolPattern : Pattern :=
  words ["yes", "Yes", "YES", "no", "No", "NO", "true", "True", "TRUE", "false", "False", "FALSE",
    "on", "On", "ON", "off", "Off", "OFF"]

open Pattern in
/-- Floating-point numbers: with a point, in groups of sixty, infinities, and not a number. -/
def floatPattern : Pattern :=
  anyPattern
    [row [maybeSign, digit, star digitOrGap, char '.', star digitOrGap, maybeExponent],
      row [char '.', digit, star digitOrGap, maybeExponent],
      row [maybeSign, digit, star digitOrGap, sixtieths, char '.', star digitOrGap],
      row [maybeSign, char '.', words ["inf", "Inf", "INF"]],
      row [char '.', words ["nan", "NaN", "NAN"]]]

open Pattern in
/-- Integers: of base two, eight, ten and sixteen, and in groups of sixty. -/
def intPattern : Pattern :=
  anyPattern
    [row [maybeSign, word "0b", many (anyOf "01_")],
      row [maybeSign, char '0', many (anyOf "01234567_")],
      row [maybeSign, (char '0').or (row [anyOf "123456789", star digitOrGap])],
      row [maybeSign, word "0x", many (anyOf "0123456789abcdefABCDEF_")],
      row [maybeSign, anyOf "123456789", star digitOrGap, sixtieths]]

open Pattern in
/-- The word for no value, a tilde, or nothing. -/
def nullPattern : Pattern := words ["~", "null", "Null", "NULL", ""]

open Pattern in
/-- Days, and days with a time and an offset. -/
def timestampPattern : Pattern :=
  let blanks := star (anyOf " \t")
  let time := row
    [(anyOf "Tt").or (many (anyOf " \t")), digit, maybe digit, char ':', digit, digit, char ':',
      digit, digit, maybe (row [char '.', star digit]),
      maybe (row [blanks, (char 'Z').or
        (row [anyOf "-+", digit, maybe digit, maybe (row [char ':', digit, digit])])])]
  (row [digit, digit, digit, digit, char '-', digit, digit, char '-', digit, digit]).or
    (row [digit, digit, digit, digit, char '-', digit, maybe digit, char '-', digit, maybe digit,
      time])

open Pattern in
/-- The patterns of plain scalars, each with the characters with which it can begin. -/
def plainPatterns : List (String × Pattern × Tag) :=
  [("yYnNtTfFoO", boolPattern, .bool), ("-+0123456789.", floatPattern, .float),
    ("-+0123456789", intPattern, .int), ("<", word "<<", .merge), ("~nN", nullPattern, .null),
    ("0123456789", timestampPattern, .timestamp), ("=", word "=", .value),
    ("!&*", words ["!", "&", "*"], .other)]

/-- A text without a line feed at its end. -/
def dropLineFeed (t : Text) : Text := if t.getLast? = some (.char '\n') then t.dropLast else t

/-- The tag of a plain scalar. -/
def Tag.ofPlain (t : Text) : Tag :=
  match t with
  | [] => .null
  | first :: _ =>
    let fits (entry : String × Pattern × Tag) : Bool :=
      entry.1.toList.any (fun c => first = .char c) && entry.2.1.accepts (dropLineFeed t)
    ((plainPatterns.find? fits).map (·.2.2)).getD .text

end Yaml

end PushButton
