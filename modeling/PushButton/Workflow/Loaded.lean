import PushButton.Failure
import PushButton.Workflow.Format
import PushButton.Yaml.Document

/-!
# Workflow files

A workflow file holds one document, in YAML or in JSON, which YAML includes. The name of the file
has no meaning.
-/

namespace PushButton

/-- Why a file gives no workflow. -/
inductive LoadError where
  /-- There is no file. -/
  | missing
  /-- The file cannot be read. -/
  | file (e : FileError)
  /-- The bytes of the file are no text. -/
  | bytes (e : Utf8.DecodeError)
  /-- The text holds no data. -/
  | text (flaw : Yaml.Flaw)
  /-- A parameter is nested too deeply to be written. -/
  | deepParameter
  /-- The data describe no workflow. -/
  | rejected (r : Rejection)
deriving DecidableEq, Repr

/-- The failure to load the file of a path. -/
def LoadError.failure (p : Path) : LoadError → Failure
  | .missing => ⟨.file .missing, "Workflow file not found: " ++ p.shown⟩
  | .file e => e.failure
  | .bytes e => e.failure
  | .text .malformed => ⟨.invalid, "YAML parse error in " ++ p.shown ++ ": <detail>"⟩
  | .text .tooDeep => ⟨.tooDeep, "maximum recursion depth exceeded"⟩
  | .text (.conversion c) => c.failure
  | .deepParameter =>
    ⟨.tooDeep, "maximum recursion depth exceeded while getting the repr of an object"⟩
  | .rejected r => ⟨.invalid, r.message ("'" ++ p.shown ++ "'")⟩

/-- A parameter of an action is nested too deeply to be written. -/
def Datum.hasDeepParameter : Datum → Bool
  | .map entries =>
    match Datum.entry? "actions" entries with
    | some (.list ds) => ds.any isDeepAction
    | _ => false
  | _ => false
where
  /-- The action has such a parameter. -/
  isDeepAction : Datum → Bool
    | .map entries =>
      match Datum.entry? "params" entries with
      | some (.map params) => params.any fun p => p.2.depth > Datum.maxDepth
      | _ => false
    | _ => false

namespace Workflow

/-- The workflow that the data of a document describe. -/
def ofDocument (data : Datum) : Except LoadError Workflow :=
  if data.hasDeepParameter then .error .deepParameter else (ofDatum data).mapError .rejected

/-- The workflow of the bytes of a file. -/
def ofBytes (bytes : Bytes) : Except LoadError Workflow := do
  let text ← (Files.textOf bytes).mapError .bytes
  let data ← (Yaml.read text).mapError .text
  ofDocument data

/-- The workflow in a file. -/
def load (fs : Files) (p : Path) : Except LoadError Workflow := do
  if !fs.has p then throw .missing
  let bytes ← (fs.read p).mapError .file
  ofBytes bytes

end Workflow

end PushButton
