import PushButton.Files.Tree
import PushButton.Log.Record

/-!
# The log file

The records that are grave enough are written to the log file, each as one line of JSON at its end.
-/

namespace PushButton

namespace Files

/-- The bytes of a record in the log file; a record that has no bytes is left out. -/
def recordBytes (time : Moment) (r : Record) : Bytes :=
  (Utf8.encode (r.jsonLine time ++ [.char '\n'])).toOption.getD []

/-- The file system with records at the end of a log file, each with a time. What cannot be written
is left out. -/
def appendRecords (fs : Files) (path : Path) (time : Moment) (records : List Record) : Files :=
  if records.isEmpty then fs
  else
    let before := (fs.read path).toOption.getD []
    (fs.write path (before ++ records.flatMap (recordBytes time))).toOption.getD fs

end Files

end PushButton
