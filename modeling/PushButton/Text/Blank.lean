import PushButton.Text.Symbol

/-!
# White space

Three sets of white space occur in the formats of this library: the white space of JSON, the
Unicode property `White_Space`, and that property together with the four information separators,
which is what is trimmed from text that a person typed.
-/

namespace PushButton

namespace Symbol

/-- White space between the tokens of a JSON text. -/
def isJsonBlank (s : Symbol) : Bool :=
  s = .char ' ' || s = .char '\t' || s = .char '\n' || s = .char '\r'

/-- The Unicode property `White_Space`. -/
def isSpace (s : Symbol) : Bool :=
  let n := s.code
  (9 ≤ n && n ≤ 13) || n = 32 || n = 0x85 || n = 0xA0 || n = 0x1680 ||
    (0x2000 ≤ n && n ≤ 0x200A) || n = 0x2028 || n = 0x2029 || n = 0x202F || n = 0x205F ||
    n = 0x3000

/-- White space, the information separators 28 to 31 included. -/
def isBlank (s : Symbol) : Bool := s.isSpace || (28 ≤ s.code && s.code ≤ 31)

end Symbol

namespace Text

/-- A text without the white space at its ends. -/
def strip (t : Text) : Text := trim Symbol.isBlank t

/-- A text without the white space at its end. -/
def stripEnd (t : Text) : Text := dropTail Symbol.isBlank t

/-- A text of white space alone. -/
def isBlank (t : Text) : Bool := t.all Symbol.isBlank

end Text

end PushButton
