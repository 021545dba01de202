import PushButton.Host.Request
import PushButton.Surface.Frame
import PushButton.Text.Blank
import PushButton.Text.Lines

/-!
# The terminal as a host

On a terminal a message is printed in a frame and acknowledged by a line of input, and a question is
answered by a line of input. A terminal can always be reset, which is counted, and is never closed.
-/

namespace PushButton

/-- A terminal. -/
structure Terminal where
  /-- The input that was not yet read. -/
  input : Text := []
  /-- The number of times that a reset was asked for. -/
  reloads : Nat := 0
deriving DecidableEq, Repr

namespace Terminal

/-- The name of the part of the program that deals with the terminal. -/
def logger : Text := "button_workflow.host.terminal"

/-- A line of input, where there is one. -/
def readLine (t : Terminal) : Option Text × Terminal :=
  match Text.nextLine? t.input with
  | none => (none, t)
  | some (line, rest) => (some line, { t with input := rest })

/-- A message in a frame, with what is printed in front of the acknowledgement. -/
def alertText (message : Text) : Text :=
  Frame.panel "Alert" (Markup.visible message) ++ "Press Enter to continue "

/-- A question, as it is printed. -/
def promptText (message : Text) : Text := Markup.visible message ++ ": "

/-- The record about a reset. -/
def reloadRecord : Record :=
  { level := .info
    logger := logger
    message := "Reload requested: the button surface is reset" }

/-- The reply to a request. -/
def reply (r : Request) (t : Terminal) : Reply × Terminal × List Occurrence :=
  match r with
  | .alert message =>
    match t.readLine with
    | (some _, t) => (.done, t, [.printed (alertText message)])
    | (none, t) =>
      (.failed ⟨.refused, "alert could not be acknowledged (input closed)"⟩, t,
        [.printed (alertText message)])
  | .prompt message =>
    match t.readLine with
    | (some line, t) => (.answer (some line.strip), t, [.printed (promptText message)])
    | (none, t) => (.answer none, t, [.printed (promptText message ++ "\n")])
  | .reload => (.done, { t with reloads := t.reloads + 1 }, [.logged reloadRecord])
  | .close => (.failed ⟨.refused, "the terminal does not allow programmatic closing"⟩, t, [])

/-- The terminal as a host, which replies to every request at once. -/
def host : Host Terminal where
  ask r t :=
    let (answer, t, os) := reply r t
    (some answer, t, os)
  settle := reply
  abandon _ t := (t, [])

end Terminal

end PushButton
