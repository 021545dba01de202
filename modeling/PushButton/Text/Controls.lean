import PushButton.Text.Symbol

/-!
# Control sequences

A terminal is controlled by sequences that begin with the escape character and an opening bracket,
followed by parameters and a letter. They are dropped from text that is not written to a terminal.
-/

namespace PushButton

namespace Text

/-- The length of parameters with the letter behind them, where the letter follows. -/
def sequenceLength? : Text → Option Nat
  | [] => none
  | s :: rest =>
    if s.isLetter then some 1
    else if s.isDigit || s = .char ';' || s = .char '?' then (sequenceLength? rest).map (· + 1)
    else none

/-- The length of the control sequence behind the escape character with which it begins. -/
def controlLength? : Text → Option Nat
  | [] => none
  | s :: rest => if s = .char '[' then (sequenceLength? rest).map (· + 1) else none

/-- A text without control sequences, of which a number of symbols belongs to a sequence already. -/
def dropControlsFrom (skipped : Nat) : Text → Text
  | [] => []
  | s :: rest =>
    match skipped with
    | n + 1 => dropControlsFrom n rest
    | 0 =>
      match if s = .char '\x1b' then controlLength? rest else none with
      | some n => dropControlsFrom n rest
      | none => s :: dropControlsFrom 0 rest

/-- A text without control sequences. -/
def dropControls (t : Text) : Text := dropControlsFrom 0 t

end Text

end PushButton
