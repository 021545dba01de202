import PushButton.Text.Symbol

/-!
# Lines

Files are read with every line ending turned into a line feed, so that a text has the same lines
on every machine.
-/

namespace PushButton

namespace Text

/-- Carriage returns, alone or before a line feed, turned into line feeds. -/
def unifyLines : Text → Text
  | [] => []
  | .char '\r' :: .char '\n' :: rest => .char '\n' :: unifyLines rest
  | .char '\r' :: rest => .char '\n' :: unifyLines rest
  | s :: rest => s :: unifyLines rest

/-- The first line of a text, without its line feed, and what follows it; nothing when the text is
at its end. -/
def nextLine? (t : Text) : Option (Text × Text) :=
  if t.isEmpty then none
  else some ((cut? (.char '\n') t).getD (t, []))

/-- The lines of a text, each without its line feed; a final line feed starts no line. -/
def lines (t : Text) : List Text :=
  let pieces := splitOn (.char '\n') t
  if pieces.getLast? = some [] then pieces.dropLast else pieces

end Text

end PushButton
