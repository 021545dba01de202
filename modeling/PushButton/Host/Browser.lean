import PushButton.Host.Request
import PushButton.Surface.Page

/-!
# A browser as a host

A browser shows the surface in a page. Messages and questions are dialogs of the page, which are
answered by another host; a dialog blocks its page, so that it is settled whatever happens. Every
call to the browser may fail. What fails while the surface is opened is released again.
-/

namespace PushButton

/-- A browser, with the state of the host that answers its dialogs. -/
structure Browser (ρ : Type) where
  /-- The settings. -/
  settings : Settings
  /-- The label of the button. -/
  label : Text
  /-- The message with which a call fails, where it fails, by the number of calls before it. -/
  faults : Nat → PageCall → Option Text
  /-- The number of calls. -/
  calls : Nat := 0
  /-- The page says that it is closed. -/
  closed : Bool := false
  /-- There is a page. -/
  hasPage : Bool := false
  /-- The program answers the addresses of the page. -/
  routed : Bool := false
  /-- A browser was launched and not yet closed. -/
  launched : Bool := false
  /-- A driver was started and not yet stopped. -/
  driven : Bool := false
  /-- The state of the host that answers the dialogs. -/
  responder : ρ

/-- The kinds of dialogs. -/
inductive DialogKind where
  /-- A message. -/
  | alert
  /-- A question. -/
  | prompt
  /-- Something else. -/
  | other
deriving DecidableEq, Repr

/-- An activity with a browser, which may fail; what happens in it is kept in order. -/
abbrev BrowserAct (ρ : Type) := ExceptT Failure (StateM (Browser ρ × List Occurrence))

namespace Browser

variable {ρ α : Type}

/-- The name of the part of the program that deals with the browser. -/
def logger : Text := "button_workflow.host.browser"

/-- An activity, from a state of the browser on. -/
def perform (act : BrowserAct ρ α) (b : Browser ρ) :
    Except Failure α × Browser ρ × List Occurrence :=
  let (result, b, os) := (act.run).run (b, [])
  (result, b, os)

/-- The state of the browser. -/
def state : BrowserAct ρ (Browser ρ) := do pure (← get).1

/-- The state of the browser is changed. -/
def change (f : Browser ρ → Browser ρ) : BrowserAct ρ Unit := modify fun (b, os) => (f b, os)

/-- Something happens. -/
def occur (o : Occurrence) : BrowserAct ρ Unit := modify fun (b, os) => (b, os ++ [o])

/-- A record is made. -/
def log (level : Level) (message : Text) : BrowserAct ρ Unit :=
  occur (.logged { level := level, logger := logger, message := message })

/-- A call. -/
def call (c : PageCall) : BrowserAct ρ Unit := do
  let b ← state
  occur (.called c)
  change fun b => { b with calls := b.calls + 1 }
  match b.faults b.calls c with
  | some message => throw ⟨.page, message⟩
  | none => pure ()

/-- The other host does something. -/
def delegate (f : ρ → α × ρ × List Occurrence) : BrowserAct ρ α := do
  let b ← state
  let (a, responder, os) := f b.responder
  modify fun (b, past) => ({ b with responder := responder }, past ++ os)
  pure a

/-- A dialog that was not settled is dismissed; that it cannot be dismissed is only recorded. -/
def dismissRest : BrowserAct ρ Unit :=
  tryCatch (call .dismiss) fun f => log .debug ("dialog already closed: " ++ f.message)

/-- A dialog is settled by a call; if that fails, the dialog is dismissed. -/
def settleBy (c : PageCall) : BrowserAct ρ Unit :=
  tryCatch (call c) fun f => do
    dismissRest
    throw f

/-- A dialog is settled after the other host has failed: a refusal is recorded, and any other
failure goes on. -/
def settleFailed (f : Failure) : BrowserAct ρ Unit := do
  if f.kind = .refused then
    log .warning ("Dialog could not be answered, dismissing: " ++ f.message)
    dismissRest
  else
    dismissRest
    throw f

/-- A dialog is settled according to the reply of the other host. The answer that the dialog was
accepted with is given back. -/
def settleDialog (kind : DialogKind) (reply : Reply) : BrowserAct ρ (Option Text) := do
  match kind, reply with
  | _, .failed f =>
    settleFailed f
    pure none
  | .prompt, .answer (some t) =>
    settleBy (.accept (some t))
    pure (some t)
  | .prompt, _ =>
    settleBy .dismiss
    pure none
  | _, _ =>
    settleBy (.accept none)
    pure none

/-- A dialog is answered without waiting. -/
def answerDialog (h : Host ρ) (kind : DialogKind) (message : Text) :
    BrowserAct ρ (Option Text) := do
  let answer (r : Request) : BrowserAct ρ Reply := do
    match ← delegate (h.ask r) with
    | some reply => pure reply
    | none => delegate (h.settle r)
  match kind with
  | .prompt => settleDialog kind (← answer (.prompt message))
  | .alert => settleDialog kind (← answer (.alert message))
  | .other => settleDialog kind .done

/-- The failure of a request when there is no page. -/
def notStarted : Failure := ⟨.refused, "browser surface is not started"⟩

/-- There has to be a page. -/
def requirePage : BrowserAct ρ Unit := do
  if !(← state).hasPage then throw notStarted

/-- The reply to a request that fails: a failing call refuses it. -/
def failedReply (r : Request) (f : Failure) : Reply :=
  .failed (if f.kind = .page then ⟨.refused, r.name ++ " failed: " ++ f.message⟩ else f)

/-- The program that is evaluated for a request, and the dialog that it raises. -/
def scriptOf : Request → Option (Script × DialogKind)
  | .alert message => some (.alert message, .alert)
  | .prompt message => some (.prompt message, .prompt)
  | .reload | .close => none

/-- The reply to a request whose dialog was settled. -/
def replyOf (kind : DialogKind) (answer : Option Text) : Reply :=
  if kind = .prompt then .answer answer else .done

/-- A request is taken; it waits where the other host waits. -/
def take (h : Host ρ) (r : Request) : BrowserAct ρ (Option Reply) := do
  requirePage
  match r, scriptOf r with
  | _, some (script, kind) =>
    call (.evaluate script)
    match ← delegate (h.ask r) with
    | some reply => pure (some (replyOf kind (← settleDialog kind reply)))
    | none => pure none
  | .reload, none =>
    call .reload
    pure (some .done)
  | _, none =>
    call (.evaluate .close)
    pure (some .done)

/-- A request that waits is settled. -/
def settle (h : Host ρ) (r : Request) : BrowserAct ρ Reply := do
  match scriptOf r with
  | some (_, kind) => pure (replyOf kind (← settleDialog kind (← delegate (h.settle r))))
  | none => pure .done

/-- A request that waits is given up: its dialog is dismissed. -/
def abandon (h : Host ρ) (r : Request) : BrowserAct ρ Unit := do
  delegate fun responder => ((), h.abandon r responder)
  dismissRest

/-- A browser as a host, with another host that answers its dialogs. -/
def host (h : Host ρ) : Host (Browser ρ) where
  ask r b :=
    match perform (take h r) b with
    | (.ok reply, b, os) => (reply, b, os)
    | (.error f, b, os) => (some (failedReply r f), b, os)
  settle r b :=
    match perform (settle h r) b with
    | (.ok reply, b, os) => (reply, b, os)
    | (.error f, b, os) => (failedReply r f, b, os)
  abandon r b := (perform (abandon h r) b).2

/-- A request is met without waiting. -/
def request (h : Host ρ) (r : Request) : BrowserAct ρ Reply := do
  tryCatch (do
    match ← take h r with
    | some reply => pure reply
    | none => settle h r) fun f => pure (failedReply r f)

/-- The browser is closed and the driver stopped, where they are there. That a browser cannot be
closed does not matter. -/
def close : BrowserAct ρ Unit := do
  if (← state).launched then
    tryCatch (call .closeBrowser) fun _ => pure ()
    change fun b => { b with launched := false }
  if (← state).driven then
    call .stopDriver
    change fun b => { b with driven := false }

/-- A page is made in a new browser. -/
def makePage : BrowserAct ρ Unit := do
  let s := (← state).settings
  call .startDriver
  change fun b => { b with driven := true }
  call (.launch s.browser s.launchOptions)
  change fun b => { b with launched := true }
  call .newContext
  call .newPage
  call (.route (s.origin ++ "**"))
  call .listen
  call (.goto s.origin)

/-- The surface is opened, unless there is a page. -/
def start : BrowserAct ρ Unit := do
  let b ← state
  if !b.hasPage then
    tryCatch makePage fun f => do
      close
      throw ⟨.refused, "could not open the browser surface: " ++ f.message⟩
    change fun b => { b with hasPage := true, routed := true }
    log .info
      ("Browser surface ready at " ++ b.settings.origin ++ " (" ++ b.settings.browser.name ++ ")")

/-- A page that is there from the beginning is used. -/
def adopt : BrowserAct ρ Unit := do
  change fun b => { b with hasPage := true }
  call .listen

/-- The state of a surface is shown in the page, unless that is closed. That it cannot be shown is
only recorded. -/
def render (s : SurfaceState) : BrowserAct ρ Unit := do
  requirePage
  if !(← state).closed then
    tryCatch (call (.evaluate (.render s.snapshot))) fun f =>
      log .debug ("render skipped: " ++ f.message)

/-- The page asks for its address, and gets the document of the surface, where the program answers
its addresses. -/
def serve : BrowserAct ρ Unit := do
  let b ← state
  if b.routed then
    call (.fulfill ⟨200, "text/html; charset=utf-8", Page.document b.label b.settings.color⟩)

end Browser

end PushButton
