import PushButton.Failure
import PushButton.Host.PageCall
import PushButton.Log.Record
import PushButton.Surface.State

/-!
# Requests to a host, and what happens

A host shows dialogs, reloads the surface and may close it. It is asked by requests. It replies to a
request at once, or lets the one who asks wait; a request that waits is settled later, or given up.
What happens is kept in a list: records of the log, waiting times, notifications, and what hosts do.
-/

namespace PushButton

/-- A request to a host. -/
inductive Request where
  /-- Show a message until it is acknowledged. -/
  | alert (message : Text)
  /-- Ask a question. -/
  | prompt (message : Text)
  /-- Reload the surface. -/
  | reload
  /-- Close the surface. -/
  | close
deriving DecidableEq, Repr

/-- The name of a request. -/
def Request.name : Request → Text
  | .alert _ => "alert"
  | .prompt _ => "prompt"
  | .reload => "reload"
  | .close => "close"

/-- How a request ends. -/
inductive Reply where
  /-- It was met. -/
  | done
  /-- A question was answered, or not. -/
  | answer (text : Option Text)
  /-- It failed: it was refused, or something else went wrong. -/
  | failed (f : Failure)
deriving DecidableEq, Repr

/-- Something that happens. -/
inductive Occurrence where
  /-- A record is made. -/
  | logged (r : Record)
  /-- Milliseconds pass. -/
  | slept (ms : Nat)
  /-- A listener is told about a part of the state, with the numbers of lines and images. -/
  | notified (listener : Text) (field : Field) (output images : Nat)
  /-- A host is asked. -/
  | asked (r : Request)
  /-- A browser, a page or a dialog is called. -/
  | called (c : PageCall)
  /-- Text is printed. -/
  | printed (t : Text)
deriving Repr

namespace Occurrence

/-- The record that is made, where one is made. -/
def record? : Occurrence → Option Record
  | .logged r => some r
  | _ => none

/-- The text that is printed, where one is printed. -/
def text? : Occurrence → Option Text
  | .printed t => some t
  | _ => none

end Occurrence

/-- A host, with a state of its own. -/
structure Host (σ : Type) where
  /-- Takes a request, and replies unless the request has to wait. -/
  ask : Request → σ → Option Reply × σ × List Occurrence
  /-- Settles a request that waits. -/
  settle : Request → σ → Reply × σ × List Occurrence
  /-- Gives up a request that waits. -/
  abandon : Request → σ → σ × List Occurrence

end PushButton
