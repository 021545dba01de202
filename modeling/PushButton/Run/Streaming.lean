import PushButton.Run.World
import PushButton.Surface.Markup

/-!
# Streaming the lines of a surface

An observer can print the lines of a surface as they are put out. How many lines it has printed
follows from the history: it has printed all those that were there when it was last told about the
lines. When there are fewer now, the lines were taken away and printing starts over.
-/

namespace PushButton

namespace Streaming

/-- The name of the observer. -/
def name : Text := "stream"

/-- The number of lines that were there when the observer was last told about them, given the latest
occurrence first. -/
def printedLines : List Occurrence → Nat
  | [] => 0
  | .notified listener .output count _ :: past =>
    if listener = name then count else printedLines past
  | _ :: past => printedLines past

/-- A line as it is printed. -/
def shown (line : Text) : Text := "> " ++ Markup.visible line ++ "\n"

/-- The observer that prints every line once. -/
def listener : Listener where
  name := name
  react field s past :=
    match field with
    | .output => { prints := (s.output.drop (min (printedLines past) s.output.length)).map shown }
    | _ => {}

end Streaming

end PushButton
