import PushButton.Cli.Transfer
import PushButton.Host.Browser
import PushButton.Host.Terminal
import PushButton.Run.Basic
import PushButton.Run.Streaming
import PushButton.Surface.Rendering

/-!
# The command that presses the button

The stored workflow is run a number of times on one surface, on the terminal or in a browser whose
dialogs the terminal answers. The lines are printed as they are put out; in a browser the page shows
the surface after every action. A disabled button is not pressed. In the end the surface is
rendered.
-/

namespace PushButton

namespace Press

variable {σ : Type}

/-- What is said when the button is disabled. -/
def skipped : Text := "Button is disabled; remaining presses skipped.\n"

/-- What is said in front of one of several presses. -/
def heading (number times : Nat) : Text :=
  "-- press " ++ Text.ofNat number ++ "/" ++ Text.ofNat times ++ " --\n"

/-- The button is pressed up to a number of times, of which some are left, each time by one run. -/
def repeated (once : Act σ Unit) (times : Nat) : Nat → Act σ Unit
  | 0 => pure ()
  | left + 1 => do
    if (← get).surface.disabled then Act.occur (.printed skipped)
    else
      if times > 1 then Act.occur (.printed (heading (times - left) times))
      once
      repeated once times left

/-- The terminal of a process. -/
def terminal : Host Terminal := Terminal.host.onConsole

/-- Presses on the terminal. -/
def onTerminal (w : Workflow) (times : Nat) : Act Terminal Unit :=
  repeated (Run.complete terminal (some w)) times times

/-- Something is done with the browser of a world. -/
def withBrowser {ρ α : Type} (act : BrowserAct ρ α) : Act (Browser ρ) α := do
  let w ← get
  let (result, b, os) := w.host.perform act
  set ({ w with host := b }.after os)
  match result with
  | .ok a => pure a
  | .error f => throw f

/-- A run goes on to its end, and the page shows the surface after every action. The number bounds
how often the run is left. -/
def runShown {ρ : Type} (h : Host ρ) (r : Run) : Nat → Act (Browser ρ) Unit
  | 0 => pure ()
  | bound + 1 => do
    let pauses : Pauses := { steps := true }
    let onward : StateM (World (Browser ρ)) (Run × Progress) := r.advance (Browser.host h) pauses
    match ← onward with
    | (_, .failed f) => throw f
    | (r, .stepped _ _ _) => do
      withBrowser (Browser.render (← get).surface)
      runShown h r bound
    | _ => pure ()

/-- Presses in a browser, which is opened before and closed afterwards. -/
def inBrowser {ρ : Type} (h : Host ρ) (w : Workflow) (times : Nat) : Act (Browser ρ) Unit := do
  withBrowser Browser.start
  let once := runShown h (Run.ofWorkflow (some w)) (w.actions.length + 1)
  tryCatch (repeated once times times) fun f => do
    withBrowser Browser.close
    throw f
  withBrowser Browser.close

end Press

namespace Cli

namespace Job

/-- The world of the presses of a process. -/
def pressWorld {σ : Type} (host : σ) (pacing : Option Int) (s : Shell) : World σ :=
  { surface := .fresh s.settings.color
    listeners := [Streaming.listener.onConsole]
    shelf := ⟨.file s.settings.storageFile, s.machine.files⟩
    draws := s.machine.draws
    runIds := s.machine.runIds
    host := host
    sequencer := .paced (pacing.getD s.settings.pacing) }

/-- The record about a host that refused to be used. -/
def unavailable (f : Failure) : Record :=
  { level := .error
    logger := "button_workflow.cli"
    message := "Host unavailable: " ++ f.message }

/-- Presses with a host, and the surface after them. Their records are written to the log file when
the presses are over, so that a storage that is kept in that file is not disturbed by them before.
-/
def pressWith {σ : Type} (host : σ) (pacing : Option Int) (act : Act σ Unit) :
    Job SurfaceState := do
  let s ← get
  let (result, w) := (act.run).run (pressWorld host pacing s)
  set { s with
    machine := { s.machine with files := w.shelf.files, draws := w.draws, runIds := w.runIds } }
  occur w.past.reverse
  match result with
  | .ok () => pure w.surface
  | .error f =>
    if f.kind = .refused then
      occur [.logged (unavailable f)]
      exit 1
    else fail f

/-- The button is pressed, the surface rendered, and its state perhaps written to a file. -/
def press (host : Option HostKind) (pacing : Option Int) (times : Nat) (path : Option Text) :
    Job Unit := do
  let w ← stored errorWord
  let s ← get
  let input : Terminal := { input := s.around.input }
  let surface ← match host.getD s.settings.host with
    | .terminal => pressWith input pacing (Press.onTerminal w times)
    | .browser =>
      let b : Browser Terminal :=
        { settings := s.settings, label := w.label, faults := s.around.faults
          closed := s.around.pageClosed, responder := input }
      pressWith b pacing (Press.inBrowser Press.terminal w times)
  let contents ← ofExcept ((Markup.resolve (surface.markup w.label)).mapError markupFailure)
  printText (Frame.panel SurfaceState.title contents)
  match path.filter fun t => !t.isEmpty with
  | none => pure ()
  | some path =>
    let text := Json.write { charset := .ascii, indent := some 2 } surface.snapshot
    say ("Wrote run state: " ++ (← writeFile path text))

end Job

end Cli

end PushButton
