import PushButton.Text.Symbol

/-!
# A place in a document

A document is read through a cursor: the symbols that are left, with the number of symbols, lines
and columns in front of them. A byte order mark takes no column, and besides the line feed and the
carriage return the next-line control and the line and paragraph separators end a line.
-/

namespace PushButton

namespace Symbol

/-- A symbol that ends a line. -/
def isBreak (s : Symbol) : Bool :=
  s = .char '\n' || s = .char '\r' || s = .char '\x85' || s = .char '\u2028' || s = .char '\u2029'

/-- A letter, a digit, a dash or an underscore. -/
def isWordPart (s : Symbol) : Bool :=
  s.isDigit || s.isLetter || s = .char '-' || s = .char '_'

/-- One of the characters of a string. -/
def isOneOf (cs : String) (s : Symbol) : Bool := cs.toList.any fun c => s = .char c

end Symbol

namespace Yaml

/-- A place in a document. -/
structure Cursor where
  /-- The symbols from the place on. -/
  rest : Text
  /-- The number of symbols in front of the place. -/
  index : Nat := 0
  /-- The number of lines in front of the place. -/
  line : Nat := 0
  /-- The number of columns in front of the place on its line. -/
  column : Nat := 0
deriving DecidableEq, Repr

namespace Cursor

/-- The symbol at a distance from the place. -/
def ahead (c : Cursor) (n : Nat) : Option Symbol := c.rest[n]?

/-- The symbol at the place. -/
def next (c : Cursor) : Option Symbol := c.rest.head?

/-- The document ends at the place. -/
def atEnd (c : Cursor) : Bool := c.rest.isEmpty

/-- The symbol at the place satisfies a test. -/
def sees (c : Cursor) (p : Symbol → Bool) : Bool := c.next.any p

/-- A character stands at the place. -/
def seesChar (c : Cursor) (ch : Char) : Bool := c.sees (· = .char ch)

/-- The place one symbol further. -/
def step (c : Cursor) : Cursor :=
  match c.rest with
  | [] => c
  | s :: rest =>
    let endsLine := s.isBreak && !(s = .char '\r' && rest.head? = some (.char '\n'))
    { rest := rest
      index := c.index + 1
      line := if endsLine then c.line + 1 else c.line
      column := if endsLine then 0 else if s = .char '\ufeff' then c.column else c.column + 1 }

/-- The place a number of symbols further. -/
def skip (c : Cursor) : Nat → Cursor
  | 0 => c
  | n + 1 => c.step.skip n

/-- The place behind the symbols that satisfy a test. -/
def skipWhile (c : Cursor) (p : Symbol → Bool) : Cursor := c.skip (c.rest.takeWhile p).length

/-- The symbols from the place on that satisfy a test, and the place behind them. -/
def takeWhile (c : Cursor) (p : Symbol → Bool) : Text × Cursor :=
  (c.rest.takeWhile p, c.skipWhile p)

/-- The place behind spaces. -/
def skipSpaces (c : Cursor) : Cursor := c.skipWhile (· = .char ' ')

/-- The place behind spaces, up to a column. -/
def skipSpacesTo (column : Nat) (c : Cursor) : Cursor :=
  c.skip (min (column - c.column) (c.rest.takeWhile (· = .char ' ')).length)

/-- The place behind the rest of a comment. -/
def skipComment (c : Cursor) : Cursor :=
  if c.seesChar '#' then c.skipWhile fun s => !s.isBreak else c

/-- The text of the line ending at the place, and the place behind it. Separators of lines and
paragraphs are kept, and all other endings become line feeds. -/
def lineBreak? (c : Cursor) : Option (Symbol × Cursor) :=
  match c.rest with
  | .char '\r' :: .char '\n' :: _ => some (.char '\n', c.skip 2)
  | s :: _ =>
    if s = .char '\u2028' || s = .char '\u2029' then some (s, c.step)
    else if s.isBreak then some (.char '\n', c.step)
    else none
  | [] => none

/-- Nothing, white space or a line ending stands at a distance from the place. -/
def blankAt (c : Cursor) (n : Nat) : Bool :=
  (c.ahead n).all fun s => s = .char ' ' || s = .char '\t' || s.isBreak

/-- Nothing, a space or a line ending stands at the place. -/
def seesSpaceOrBreak (c : Cursor) : Bool := c.next.all fun s => s = .char ' ' || s.isBreak

/-- Nothing or a line ending stands at the place. -/
def seesLineEnd (c : Cursor) : Bool := c.next.all Symbol.isBreak

/-- A mark of three characters stands alone at the place. -/
def seesMark (c : Cursor) (mark : Text) : Bool := mark.isPrefixOf c.rest && c.blankAt 3

/-- The mark of the beginning or of the end of a document stands at the place. -/
def seesDocumentMark (c : Cursor) : Bool := c.seesMark "---" || c.seesMark "..."

end Cursor

end Yaml

end PushButton
