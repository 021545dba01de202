import PushButton.Text.Numeral
import PushButton.Text.Printable

/-!
# Quoted texts

A quoted text stands between single quotes, or between double quotes when it holds a single quote
and no double quote. The quote around it and the backslash are written after a backslash, line
feed, carriage return and tab as `\n`, `\r` and `\t`, and every other code point that is not
printable by its number in two, four or eight hexadecimal digits.
-/

namespace PushButton

namespace Symbol

/-- A code point as it is written between quotes. -/
def quoted (quote : Symbol) (s : Symbol) : Text :=
  if s = quote || s = .char '\\' then [.char '\\', s]
  else if s = .char '\n' then "\\n"
  else if s = .char '\r' then "\\r"
  else if s = .char '\t' then "\\t"
  else if s.isPrintable then [s]
  else if s.code ≤ 0xFF then "\\x" ++ Text.hex 2 s.code
  else if s.code ≤ 0xFFFF then "\\u" ++ Text.hex 4 s.code
  else "\\U" ++ Text.hex 8 s.code

end Symbol

namespace Text

/-- The quote that is put around a text. -/
def quoteFor (t : Text) : Symbol :=
  if t.contains (.char '\'') && !t.contains (.char '"') then .char '"' else .char '\''

/-- A text between quotes. -/
def quoted (t : Text) : Text :=
  let quote := quoteFor t
  quote :: t.flatMap (Symbol.quoted quote) ++ [quote]

/-- Bytes between quotes, after the letter `b`; bytes above 126 are written by number. -/
def quotedBytes (bytes : List UInt8) : Text :=
  let quote := quoteFor (bytes.map fun b => Symbol.ofCode b.toNat)
  let body := bytes.flatMap fun b =>
    if b.toNat < 127 then Symbol.quoted quote (.ofCode b.toNat) else "\\x" ++ hex 2 b.toNat
  .char 'b' :: quote :: body ++ [quote]

/-- Texts in quotes between square brackets. -/
def quotedList (ts : List Text) : Text := "[" ++ join ", " (ts.map quoted) ++ "]"

/-- Choices in quotes, the last one after `or`. -/
def choices (ts : List Text) : Text :=
  let named : List Text := ts.map fun (t : Text) => "'" ++ t ++ "'"
  match named.reverse with
  | [] => []
  | [only] => only
  | last :: rest => Text.join ", " rest.reverse ++ " or " ++ last

end Text

end PushButton
