import PushButton.Surface.Markup

/-!
# Frames

What belongs together is printed in a frame: a line with its kind and its title, the contents, and a
line that closes the frame. The contents are a text, or the rows of a table. The title of a table
and its cells may hold markup.
-/

namespace PushButton

namespace Frame

/-- A text in a frame. -/
def panel (title contents : Text) : Text :=
  "<panel " ++ title ++ ">\n" ++ contents ++ "\n</panel>\n"

/-- The cells of a row. -/
def row (cells : List Text) : Except MarkupError Text := do
  pure (Text.join " | " (← cells.mapM Markup.resolve) ++ "\n")

/-- A table: its columns and its rows. -/
def table (title : Text) (columns : List Text) (rows : List (List Text)) :
    Except MarkupError Text := do
  let title ← Markup.resolve title
  let rows ← rows.mapM row
  pure ("<table " ++ title ++ ">\n" ++ Text.join " | " columns ++ "\n" ++ rows.flatten ++
    "</table>\n")

end Frame

end PushButton
