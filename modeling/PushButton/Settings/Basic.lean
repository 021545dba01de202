import PushButton.Failure
import PushButton.Log.Level
import PushButton.Settings.EnvFile

/-!
# Settings

Settings are read from variables, those of the environment before those of the file `.env`; the
names of variables may be written in capitals or in small letters. What no variable gives has a
default. Every setting that is invalid is reported.
-/

namespace PushButton

/-- What shows dialogs and reloads. -/
inductive HostKind where
  /-- The terminal. -/
  | terminal
  /-- A page in a browser. -/
  | browser
deriving DecidableEq, Repr

/-- The browsers. -/
inductive BrowserKind where
  /-- Chromium. -/
  | chromium
  /-- Firefox. -/
  | firefox
  /-- WebKit. -/
  | webkit
deriving DecidableEq, Repr

/-- The hosts in order. -/
def HostKind.all : List HostKind := [.terminal, .browser]

/-- The name of a host. -/
def HostKind.name : HostKind → Text
  | .terminal => "terminal"
  | .browser => "browser"

/-- The browsers in order. -/
def BrowserKind.all : List BrowserKind := [.chromium, .firefox, .webkit]

/-- The name of a browser. -/
def BrowserKind.name : BrowserKind → Text
  | .chromium => "chromium"
  | .firefox => "firefox"
  | .webkit => "webkit"

/-- The settings. -/
structure Settings where
  /-- Milliseconds in front of every action. -/
  pacing : Nat := 200
  /-- What shows dialogs. -/
  host : HostKind := .terminal
  /-- The file of the storage. -/
  storageFile : Path := ⟨false, [".button_workflow", "local_storage.json"]⟩
  /-- The key under which the workflow is stored. -/
  configKey : Text := "workflowConfig"
  /-- The label of a new button. -/
  label : Text := "Click Me!"
  /-- The colour of a new button. -/
  color : Text := "#3B82F6"
  /-- The browser. -/
  browser : BrowserKind := .chromium
  /-- The browser shows no window. -/
  headless : Bool := false
  /-- Milliseconds by which the browser is slowed down. -/
  slowMotion : Nat := 0
  /-- The address of the page. -/
  origin : Text := "https://button-workflow.local/"
  /-- The level of the log. -/
  logLevel : Level := .info
  /-- Records are also written to a file. -/
  logToFile : Bool := false
  /-- The file of the log. -/
  logFile : Path := ⟨false, ["button-workflow.log"]⟩
  /-- The log is coloured. -/
  colored : Bool := true
deriving DecidableEq, Repr

/-- Why the value of a variable is no value of its setting. -/
inductive SettingFault where
  /-- It is no integer. -/
  | notInteger
  /-- It is a negative integer. -/
  | negative
  /-- It is none of some words. -/
  | notAmong (words : List Text)
  /-- It is no truth value. -/
  | notBool
  /-- It is empty. -/
  | empty
  /-- It is no address of a page. -/
  | notAddress
deriving DecidableEq, Repr

/-- The wording of a fault. -/
def SettingFault.message : SettingFault → Text
  | .notInteger => "Input should be a valid integer, unable to parse string as an integer"
  | .negative => "Input should be greater than or equal to 0"
  | .notAmong words => "Input should be " ++ Text.choices words
  | .notBool => "Input should be a valid boolean, unable to interpret input"
  | .empty => "String should have at least 1 character"
  | .notAddress => "Value error, BROWSER_ORIGIN must be an absolute http(s) URL"

/-- The settings that are invalid: their names, and why. -/
abbrev SettingProblems := List (Text × SettingFault)

namespace Settings

/-- A number without a sign: digits with single underscores between them, and perhaps a point and
zeros. -/
def natural? (t : Text) : Option Nat := do
  let (whole, zeros) := (Text.cut? (.char '.') t).getD (t, "0")
  if zeros.isEmpty || !zeros.all (· = .char '0') || !whole.all (fun s => s.isDigit || s = .char '_')
  then none
  else (Text.digits? 10 whole).map (Text.ofDigits 10)

/-- A number of milliseconds, with white space around it. -/
def milliseconds (t : Text) : Except SettingFault Nat :=
  let (negative, digits) := Text.signed (Text.trim Symbol.isSpace t)
  match natural? digits with
  | none => .error .notInteger
  | some n => if negative && n ≠ 0 then .error .negative else .ok n

/-- A truth value in one of its spellings. -/
def truth (t : Text) : Except SettingFault Bool :=
  let yes : List Text := ["1", "true", "t", "yes", "y", "on"]
  let no : List Text := ["0", "false", "f", "no", "n", "off"]
  let word := Text.lowerAscii t
  if yes.contains word then .ok true else if no.contains word then .ok false else .error .notBool

/-- One of some values, by its name. -/
def oneOf {α : Type} (all : List α) (name : α → Text) (t : Text) : Except SettingFault α :=
  match all.find? fun a => name a = t with
  | some a => .ok a
  | none => .error (.notAmong (all.map name))

/-- A text that is not empty. -/
def nonEmpty (t : Text) : Except SettingFault Text := if t.isEmpty then .error .empty else .ok t

/-- The address of a page, with a slash at its end. -/
def address (t : Text) : Except SettingFault Text :=
  let t := t.strip
  if (t.after? "http").isNone then .error .notAddress
  else if t.getLast? = some (.char '/') then .ok t
  else .ok (t ++ "/")

/-- One variable taken into the settings, where it is given. -/
def take {α : Type} (vars : Environment) (name : Text) (read : Text → Except SettingFault α)
    (set : α → Settings → Settings) (found : Settings × SettingProblems) :
    Settings × SettingProblems :=
  match Json.lookup (Text.lowerAscii name) vars with
  | none => found
  | some t =>
    match read t with
    | .ok a => (set a found.1, found.2)
    | .error f => (found.1, found.2 ++ [(name, f)])

/-- The settings of variables whose names are in small letters, the problems in the order of the
settings; `home` is the working directory. -/
def ofVariables (home : Path) (vars : Environment) : Except SettingProblems Settings :=
  let path (t : Text) : Except SettingFault Path := .ok ((Path.ofText t).under home)
  let text (t : Text) : Except SettingFault Text := .ok t
  let default : Settings := {}
  let start : Settings := { default with
    storageFile := default.storageFile.under home, logFile := default.logFile.under home }
  let found : Settings × SettingProblems := (start, [])
  let found := take vars "PACING_INTERVAL_MS" milliseconds (fun a s => { s with pacing := a }) found
  let found := take vars "HOST" (oneOf HostKind.all HostKind.name) (fun a s => { s with host := a })
    found
  let found := take vars "STORAGE_FILE" path (fun a s => { s with storageFile := a }) found
  let found := take vars "CONFIG_KEY" nonEmpty (fun a s => { s with configKey := a }) found
  let found := take vars "DEFAULT_BUTTON_LABEL" text (fun a s => { s with label := a }) found
  let found := take vars "DEFAULT_BUTTON_COLOR" text (fun a s => { s with color := a }) found
  let found := take vars "BROWSER_TYPE" (oneOf BrowserKind.all BrowserKind.name)
    (fun a s => { s with browser := a }) found
  let found := take vars "HEADLESS" truth (fun a s => { s with headless := a }) found
  let found := take vars "SLOW_MO" milliseconds (fun a s => { s with slowMotion := a }) found
  let found := take vars "BROWSER_ORIGIN" address (fun a s => { s with origin := a }) found
  let found := take vars "LOG_LEVEL" (oneOf Level.all Level.name)
    (fun a s => { s with logLevel := a }) found
  let found := take vars "LOG_TO_FILE" truth (fun a s => { s with logToFile := a }) found
  let found := take vars "LOG_FILE" path (fun a s => { s with logFile := a }) found
  let found := take vars "COLORIZED_OUTPUT" truth (fun a s => { s with colored := a }) found
  if found.2.isEmpty then .ok found.1 else .error found.2

/-- Variables with their names in small letters; of two with one name the later one counts. -/
def fold {α : Type} (vars : List (Text × α)) : List (Text × α) :=
  vars.foldl (fun acc (name, value) => Json.put (Text.lowerAscii name) value acc) []

/-- The message about invalid settings. -/
def problemsMessage (ps : SettingProblems) : Text :=
  Text.join "\n" (ps.map fun (name, f) => name ++ ": " ++ f.message)

/-- The variables of the file `.env` in the working directory, where there is one. -/
def fileVariables (fs : Files) (env : Environment) : Except Failure (List EnvFile.Binding) :=
  match fs.entry? ⟨false, [".env"]⟩ with
  | some (.file bytes) =>
    ((Utf8.decode bytes).map fun t => EnvFile.parse env (Text.unifyLines t)).mapError (·.failure)
  | _ => .ok []

/-- The settings of an environment and of the file `.env`. -/
def read (fs : Files) (env : Environment) : Except Failure Settings := do
  let fromFile := (fold (← fileVariables fs env)).filterMap fun (name, value) =>
    value.map fun v => (name, v)
  (ofVariables ⟨true, fs.home⟩ (fold env ++ fromFile)).mapError fun ps =>
    ⟨.setting, problemsMessage ps⟩

/-- The key of a stored workflow: the one that is given, or that of the settings when none is given,
or an empty one. -/
def workflowKey (s : Settings) (given : Option Text) : Text :=
  let key := given.getD []
  if key.isEmpty then s.configKey else key

/-- The directories of the storage and of the log made. What is made before one of them is refused
stays. -/
def makeDirectories (s : Settings) (fs : Files) : Except Failure Unit × Files :=
  match fs.makeDirectories s.storageFile.parent with
  | (.error e, fs) => (.error e.failure, fs)
  | (.ok (), fs) =>
    let (made, fs) := fs.makeDirectories s.logFile.parent
    (made.mapError (·.failure), fs)

/-- The settings of an environment and of the file `.env`, with their directories made. -/
def prepare (fs : Files) (env : Environment) : Except Failure Settings × Files :=
  match read fs env with
  | .error f => (.error f, fs)
  | .ok s =>
    let (made, fs) := s.makeDirectories fs
    (made.map fun () => s, fs)

/-- The settings by name. -/
def fields (s : Settings) : List (Text × Json) :=
  [("PACING_INTERVAL_MS", .int s.pacing), ("HOST", .text s.host.name),
    ("STORAGE_FILE", .text s.storageFile.shown), ("CONFIG_KEY", .text s.configKey),
    ("DEFAULT_BUTTON_LABEL", .text s.label), ("DEFAULT_BUTTON_COLOR", .text s.color),
    ("BROWSER_TYPE", .text s.browser.name), ("HEADLESS", .bool s.headless),
    ("SLOW_MO", .int s.slowMotion), ("BROWSER_ORIGIN", .text s.origin),
    ("LOG_LEVEL", .text s.logLevel.name), ("LOG_TO_FILE", .bool s.logToFile),
    ("LOG_FILE", .text s.logFile.shown), ("COLORIZED_OUTPUT", .bool s.colored)]

/-- How the browser is launched. -/
def launchOptions (s : Settings) : Json :=
  .object [("headless", .bool s.headless), ("slow_mo", .int s.slowMotion)]

end Settings

end PushButton
