import PushButton.Cli.Program
import Std.Time.DateTime.Timestamp

/-!
# The command line

The program as it is started: what a process needs is gathered from the machine, the process is
carried out, what happens in it is shown, and the files that it has changed are written. There is no
browser to drive here, so that every call to one fails.
-/

namespace PushButton

namespace CommandLine

/-- The text of bytes; bytes that are no text give an empty one. -/
def textOf (bytes : ByteArray) : Text := (Utf8.decode bytes.toList).toOption.getD []

/-- The variables in a text that holds them one after the other, each ended by a zero. -/
def assignments (t : Text) : Environment :=
  (Text.splitOn (.char '\x00') t).filterMap (Text.cut? (.char '='))

/-- A location as a path of the machine. -/
def pathOf (l : Location) : String := Text.toString (Path.shown ⟨true, l⟩)

/-- The locations to which names lead, from one location on. -/
def alongNames (l : Location) : List Text → List Location
  | [] => []
  | name :: rest =>
    let next := if name = ".." then l.dropLast else l ++ [name]
    next :: alongNames next rest

/-- The file system with what is at a location of the machine. -/
def look (fs : Files) (l : Location) : IO Files := do
  let place := (← IO.currentDir) / pathOf l
  if l.isEmpty then pure fs
  else if ← place.isDir then pure (fs.put l .directory)
  else if ← place.pathExists then pure (fs.put l (.file (← IO.FS.readBinFile place).toList))
  else pure fs

/-- The file system with what is on the way along a path of the machine. -/
def lookAlong (fs : Files) (p : Path) : IO Files :=
  (alongNames [] (p.under ⟨true, fs.home⟩).names).foldlM look fs

/-- The paths that arguments may name, alone or behind an equals sign. -/
def pathsIn (args : List Text) : List Path :=
  (args ++ args.filterMap fun t => (Text.cut? (.char '=') t).map (·.2)).map Path.ofText

/-- The file system with what a process may need: the working directory, the settings, the storage,
the log and what the arguments name. -/
def gather (environment : Environment) (args : List Text) : IO Files := do
  let home := Path.ofText (Text.ofString (← IO.currentDir).toString)
  let fs ← lookAlong ⟨home.names, [], []⟩ home
  let fs ← lookAlong fs (.ofText ".env")
  let settings := (Settings.read fs environment).toOption.getD {}
  (settings.storageFile :: settings.logFile :: pathsIn args).foldlM lookAlong fs

/-- The stored workflow shows dialogs, which are answered from the standard input. -/
def showsDialogs (fs : Files) (environment : Environment) : Bool :=
  let settings := (Settings.read fs environment).toOption.getD {}
  match Shelf.loadWorkflow ⟨.file settings.storageFile, fs⟩ settings.configKey with
  | .ok (some w) => w.actions.any fun a => a.kind = .alert || a.kind = .promptAndShow
  | _ => false

/-- Something that has happened is shown. -/
def play : Occurrence → IO Unit
  | .printed t => do
    let output ← IO.getStdout
    output.putStr (Text.toString t)
    output.flush
  | .slept ms => IO.sleep ms.toUInt32
  | .logged r => IO.eprintln (Text.toString r.listed)
  | _ => pure ()

/-- What a process has changed in the file system is written, directories before their contents. A
file is replaced as a whole. -/
def writeBack (before after : Files) : IO Unit :=
  after.entries.reverse.forM fun (l, e) => do
    if before.at? l ≠ some e then
      match e with
      | .directory => IO.FS.createDirAll (pathOf l)
      | .file bytes =>
        IO.FS.writeBinFile (pathOf l ++ ".new") ⟨bytes.toArray⟩
        IO.FS.rename (pathOf l ++ ".new") (pathOf l)

/-- The number of random numbers that are drawn in advance. -/
def drawCount : Nat := 4096

/-- The microseconds since the beginning of 1970. -/
def microsNow : IO Nat := do
  pure ((← Std.Time.Timestamp.now).toNanosecondsSinceUnixEpoch.toInt / 1000).toNat

/-- A number with as many bits as an action id. -/
def randomId : IO Nat := do
  pure ((← IO.getRandomBytes 16).toList.foldl (fun n b => n * 256 + b.toNat) 0)

/-- A process with its arguments, from start to end, and its exit code. -/
def start (args : List Text) : IO UInt32 := do
  let environment := assignments (textOf (← IO.FS.readBinFile "/proc/self/environ"))
  let files ← gather environment args
  let pressing := match Cli.Invocation.read args with
    | .ok (.command i) => i.command.name = "run"
    | _ => false
  let input ←
    if pressing && showsDialogs files environment then
      pure (Text.unifyLines (textOf (← IO.FS.readBinFile "/dev/stdin")))
    else pure []
  let micros ← microsNow
  let draws ← (List.replicate drawCount ()).mapM fun _ => IO.rand 0 (Action.colorCount - 1)
  let machine : Cli.Machine :=
    { files := files
      draws := draws
      runIds := (micros - Run.firstMoment) / 1000
      actionIds := ← randomId }
  let around : Cli.Surroundings :=
    { environment := environment, input := input, time := .ofMicros micros
      faults := fun _ _ => some "there is no browser" }
  let outcome := Cli.run machine around args
  outcome.occurrences.forM play
  writeBack files outcome.machine.files
  IO.eprint (Text.toString outcome.report)
  match outcome.ending with
  | .failed f => IO.eprintln ("Error: " ++ Text.toString f.message)
  | _ => pure ()
  pure outcome.code.toUInt32

end CommandLine

end PushButton

/-- Starts the program with the arguments that it was given. -/
def main (args : List String) : IO UInt32 :=
  PushButton.CommandLine.start (args.map PushButton.Text.ofString)
