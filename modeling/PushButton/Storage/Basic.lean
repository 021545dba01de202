import PushButton.Failure
import PushButton.Json.Reader
import PushButton.Json.Writer

/-!
# Storage

A storage keeps texts under keys, in the order in which the keys were first given. It keeps them in
memory, or in a file that holds one JSON object and is read anew by every operation, so that what
others write is seen. The file is replaced as a whole: the new contents are first written to another
file beside it, which is never left behind.
-/

namespace PushButton

/-- Keys with texts, in order, each key once. -/
abbrev StoredItems := List (Text × Text)

/-- Where a storage keeps its items. -/
inductive Storage where
  /-- In memory. -/
  | memory (items : StoredItems)
  /-- In a file. -/
  | file (path : Path)
deriving DecidableEq, Repr

/-- Why an operation on a storage fails. -/
inductive StorageError where
  /-- The file at a path holds no JSON. -/
  | notJson (path : Path) (e : Json.ParseError)
  /-- The file at a path holds a JSON value that is no object. -/
  | notObject (path : Path)
  /-- The bytes of the file are no text. -/
  | undecodable (e : Utf8.DecodeError)
  /-- An item has no bytes. -/
  | unencodable (e : Utf8.EncodeError)
  /-- The file system refuses. -/
  | file (e : FileError)
deriving DecidableEq, Repr

/-- The failure of an operation on a storage. -/
def StorageError.failure : StorageError → Failure
  | .notJson path e =>
    if e.isSyntax then
      ⟨.invalid, "Storage file " ++ path.shown ++ " is not valid JSON: " ++ e.message⟩
    else ⟨e.kind, e.message⟩
  | .notObject path => ⟨.invalid, "Storage file " ++ path.shown ++ " must hold a JSON object"⟩
  | .undecodable e => e.failure
  | .unencodable e => e.failure
  | .file e => e.failure

/-- A storage together with the file system. -/
structure Shelf where
  /-- The storage. -/
  storage : Storage
  /-- The file system. -/
  files : Files

namespace Storage

/-- The storage as text. -/
def shown : Storage → Text
  | .memory _ => "LocalStorage(memory)"
  | .file path => "LocalStorage(" ++ path.shown ++ ")"

/-- The text that stands for a value in a file: a text itself, and any other value as JSON. -/
def valueText : Json → Text
  | .text t => t
  | v => v.asciiLine

/-- The items in the text of a file; white space alone holds none. -/
def itemsOfText (path : Path) (t : Text) : Except StorageError StoredItems :=
  if t.isBlank then .ok []
  else
    match Json.parse t with
    | .error e => .error (.notJson path e)
    | .ok (.object fields) => .ok (fields.map fun (key, v) => (key, valueText v))
    | .ok _ => .error (.notObject path)

/-- The items in the bytes of a file. -/
def itemsOfBytes (path : Path) (bytes : Bytes) : Except StorageError StoredItems :=
  match Files.textOf bytes with
  | .error e => .error (.undecodable e)
  | .ok t => itemsOfText path t

/-- The items as a JSON object. -/
def toJson (items : StoredItems) : Json := .object (items.map fun (key, v) => (key, .text v))

/-- Why a text has no bytes between its quotes, where it has none. -/
def unencodable? (t : Text) : Option Utf8.EncodeError :=
  match Utf8.encode (Json.quoted .full t) with
  | .error e => some e
  | .ok _ => none

/-- The bytes of the items in a file. What has no bytes is reported by its position between the
quotes around it. -/
def bytesOfItems (items : StoredItems) : Except StorageError Bytes :=
  match (items.flatMap fun (key, v) => [key, v]).findSome? unencodable? with
  | some e => .error (.unencodable e)
  | none => (Utf8.encode (toJson items).block).mapError .unencodable

/-- The name of a spare file. -/
def spareName (stars : Nat) : Text :=
  ".storage-" ++ (List.replicate stars (Symbol.char '*') ++ ".json" : Text)

/-- The location of a spare file in a directory: the first name that is not yet taken. The number
bounds how many names are tried. -/
def spareLocation (fs : Files) (directory : Location) (stars : Nat) : Nat → Location
  | 0 => directory ++ [spareName stars]
  | n + 1 =>
    if (fs.at? (directory ++ [spareName stars])).isSome then
      spareLocation fs directory (stars + 1) n
    else directory ++ [spareName stars]

end Storage

namespace Shelf

/-- The items of the storage. -/
def items (s : Shelf) : Except StorageError StoredItems :=
  match s.storage with
  | .memory items => .ok items
  | .file path =>
    if !s.files.has path then .ok []
    else
      match s.files.read path with
      | .error e => .error (.file e)
      | .ok bytes => Storage.itemsOfBytes path bytes

/-- The file at a path replaced by one with given contents: the contents are written to a spare file
in the same directory, which then takes the place. -/
def replaceFile (fs : Files) (path : Path) (contents : Except StorageError Bytes) :
    Except StorageError Unit × Files :=
  match fs.makeDirectories path.parent with
  | (.error e, fs) => (.error (.file e), fs)
  | (.ok (), fs) =>
    match fs.locate path.parent, fs.locate path with
    | .ok directory, .ok target =>
      let spare := Storage.spareLocation fs directory 1 fs.entries.length
      if fs.admits spare then
        let opened := fs.put spare (.file [])
        match contents with
        | .error e => (.error e, opened.erase spare)
        | .ok bytes =>
          let written := opened.put spare (.file bytes)
          if written.at? target = some .directory then
            let e : FileError :=
              { fault := if path.isNamed then .isDirectory else .busy
                path := (Path.mk true spare).shown, target := some path.shown }
            (.error (.file e), written.erase spare)
          else (.ok (), (written.erase spare).put target (.file bytes))
      else (.error (.file (Files.fault ⟨true, spare⟩ .forbidden)), fs)
    | .error f, _ => (.error (.file (Files.fault path.parent f)), fs)
    | _, .error f => (.error (.file (Files.fault path f)), fs)

/-- The items of the storage replaced. -/
def write (s : Shelf) (items : StoredItems) : Except StorageError Unit × Shelf :=
  match s.storage with
  | .memory _ => (.ok (), { s with storage := .memory items })
  | .file path =>
    let (result, fs) := replaceFile s.files path (Storage.bytesOfItems items)
    (result, { s with files := fs })

/-- The text under a key, where there is one. -/
def get? (s : Shelf) (key : Text) : Except StorageError (Option Text) :=
  s.items.map (Json.lookup key)

/-- A text put under a key: a present key keeps its place. -/
def set (s : Shelf) (key value : Text) : Except StorageError Unit × Shelf :=
  match s.items with
  | .error e => (.error e, s)
  | .ok items => s.write (Json.put key value items)

/-- A key removed, where it is there. -/
def remove (s : Shelf) (key : Text) : Except StorageError Unit × Shelf :=
  match s.items with
  | .error e => (.error e, s)
  | .ok items =>
    if (Json.lookup key items).isSome then s.write (items.filter (·.1 ≠ key)) else (.ok (), s)

/-- All keys removed, whatever the storage holds. -/
def clear (s : Shelf) : Except StorageError Unit × Shelf := s.write []

/-- The keys in order. -/
def keys (s : Shelf) : Except StorageError (List Text) := s.items.map (List.map (·.1))

/-- The number of keys. -/
def size (s : Shelf) : Except StorageError Nat := s.keys.map List.length

/-- A key has a text. -/
def contains (s : Shelf) (key : Text) : Except StorageError Bool := (s.get? key).map Option.isSome

end Shelf

end PushButton
