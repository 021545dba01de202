import PushButton.Run.World

/-!
# Printing on a console

A console takes bytes, so that a text without bytes cannot be printed on it. An observer fails at
the first text that it cannot print, and a host fails before it reads any input.
-/

namespace PushButton

/-- Why a text cannot be printed, where it cannot. -/
def Text.unprintable? (t : Text) : Option Failure :=
  match Utf8.encode t with
  | .ok _ => none
  | .error e => some e.failure

/-- Why what happens cannot be printed, where it is printed and cannot be. -/
def Occurrence.unprintable? (o : Occurrence) : Option Failure := o.text?.bind Text.unprintable?

/-- A reaction up to the first text that cannot be printed. -/
def Reaction.onConsole (r : Reaction) : Reaction :=
  match r.prints.findSome? Text.unprintable? with
  | none => r
  | some f =>
    { r with
      prints := r.prints.takeWhile fun t => t.unprintable?.isNone
      failure := some f }

/-- An observer that prints on a console. -/
def Listener.onConsole (l : Listener) : Listener where
  name := l.name
  react field s past := (l.react field s past).onConsole

namespace Host

variable {σ : Type}

/-- A reply of a host that printed on a console: when it could not print, the host is as before and
what happened up to then has happened. -/
def replyOnConsole (before : σ) (r : Reply × σ × List Occurrence) :
    Reply × σ × List Occurrence :=
  match r.2.2.findSome? Occurrence.unprintable? with
  | none => r
  | some f => (.failed f, before, r.2.2.takeWhile fun o => o.unprintable?.isNone)

/-- A host that prints on a console. -/
def onConsole (h : Host σ) : Host σ where
  ask r s :=
    match h.ask r s with
    | (none, s, os) => (none, s, os)
    | (some reply, after, os) =>
      let (reply, after, os) := replyOnConsole s (reply, after, os)
      (some reply, after, os)
  settle r s := replyOnConsole s (h.settle r s)
  abandon := h.abandon

end Host

end PushButton
