import PushButton.Files.Tree
import PushButton.Json.Reader
import PushButton.Yaml.Flaw

/-!
# Failures

What goes wrong in an operation is a failure: a message, and a kind by which a caller decides
whether to deal with it. Faulty data of every sort are invalid; faults of the file system are told
apart by their cause.
-/

namespace PushButton

/-- The kinds of failures. -/
inductive FailureKind where
  /-- Data do not have the form that they should have. -/
  | invalid
  /-- Bytes are no text. -/
  | undecodable
  /-- A text has no bytes. -/
  | unencodable
  /-- A setting is invalid. -/
  | setting
  /-- A scalar that should be a truth value is none. -/
  | unknownWord
  /-- A scalar that should be a number is empty. -/
  | emptyNumber
  /-- A scalar that should be a timestamp is none. -/
  | noTimestamp
  /-- A value is of a sort that an operation does not apply to. -/
  | wrongSort
  /-- A number is too large. -/
  | tooLarge
  /-- Data are nested too deeply. -/
  | tooDeep
  /-- The file system refuses an operation. -/
  | file (fault : FileFault)
  /-- The host refuses a request. -/
  | refused
  /-- An operation on a page or a browser fails. -/
  | page
  /-- Markup closes a tag that is not open. -/
  | markup
  /-- A run is cancelled. -/
  | cancelled
deriving DecidableEq, Repr

/-- A failure. -/
structure Failure where
  /-- Its kind. -/
  kind : FailureKind
  /-- Its message. -/
  message : Text
deriving DecidableEq, Repr

namespace FailureKind

/-- Data are at fault. -/
def isInvalid : FailureKind → Bool
  | .invalid | .undecodable | .unencodable | .setting => true
  | _ => false

/-- The file system is at fault. -/
def isFile : FailureKind → Bool
  | .file _ => true
  | _ => false

end FailureKind

/-- The failure of an operation on files. -/
def FileError.failure (e : FileError) : Failure := ⟨.file e.fault, e.message⟩

/-- The failure to decode bytes. -/
def Utf8.DecodeError.failure (e : Utf8.DecodeError) : Failure := ⟨.undecodable, e.message⟩

/-- The failure to encode a text. -/
def Utf8.EncodeError.failure (e : Utf8.EncodeError) : Failure := ⟨.unencodable, e.message⟩

/-- The kind of the failure to read JSON. -/
def Json.ParseError.kind (e : Json.ParseError) : FailureKind :=
  if e.isDepth then .tooDeep else .invalid

/-- The kind of the failure to convert a scalar. -/
def Yaml.Conversion.kind : Yaml.Conversion → FailureKind
  | .bool _ => .unknownWord
  | .emptyNumber => .emptyNumber
  | .timestamp => .noTimestamp
  | .mappedTimestamp => .wrongSort
  | .tooManyGroups => .tooLarge
  | .codePoint n => if n < 0x80000000 then .invalid else .tooLarge
  | .integer _ _ | .tooManyDigits _ | .float _ | .time _ => .invalid

/-- The failure to convert a scalar. -/
def Yaml.Conversion.failure (c : Yaml.Conversion) : Failure := ⟨c.kind, c.message⟩

end PushButton
