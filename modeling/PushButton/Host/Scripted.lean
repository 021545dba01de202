import PushButton.Host.Request

/-!
# A host with prepared answers

A host that follows a script: it has answers for the questions to come, and it is known of every
kind of request whether it waits, whether it is refused, and whether it breaks the host.
-/

namespace PushButton

/-- What a host does, prepared in advance. Kinds of requests are given by name. -/
structure HostScript where
  /-- The answers to the questions to come; when they are used up, questions are not answered. -/
  answers : List (Option Text) := []
  /-- The kinds of requests that are refused. -/
  refused : List Text := []
  /-- The kinds of requests that break the host. -/
  broken : List Text := []
  /-- The kinds of requests that wait. -/
  suspended : List Text := []
deriving DecidableEq, Repr

namespace HostScript

/-- The reply to a request; a question that is answered uses up an answer. -/
def reply (r : Request) (s : HostScript) : Reply × HostScript :=
  if s.broken.contains r.name then (.failed ⟨.invalid, r.name ++ " crashed"⟩, s)
  else if s.refused.contains r.name then (.failed ⟨.refused, r.name ++ " refused"⟩, s)
  else
    match r with
    | .prompt _ => (.answer (s.answers.headD none), { s with answers := s.answers.drop 1 })
    | _ => (.done, s)

/-- The host that follows a script. -/
def host : Host HostScript where
  ask r s :=
    if s.suspended.contains r.name then (none, s, [.asked r])
    else (some (reply r s).1, (reply r s).2, [.asked r])
  settle r s := ((reply r s).1, (reply r s).2, [])
  abandon _ s := (s, [])

end HostScript

end PushButton
