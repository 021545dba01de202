import PushButton.Bytes.Utf8
import PushButton.Files.Path
import PushButton.Json.Value
import PushButton.Text.Lines

/-!
# Files and directories

The file system is a table of places with what is there. Directories among them may be closed:
nothing new can be made in them. An operation that the file system refuses is refused for one of
six causes and names the path as it was given.
-/

namespace PushButton

/-- What is at a place. -/
inductive Entry where
  /-- A file with its contents. -/
  | file (bytes : Bytes)
  /-- A directory. -/
  | directory
deriving DecidableEq, Repr

/-- Why an operation on a path is refused. -/
inductive FileFault where
  /-- Nothing is there. -/
  | missing
  /-- Something is there already. -/
  | exists
  /-- A part of the path in front of the last is no directory. -/
  | notDirectory
  /-- A directory is there. -/
  | isDirectory
  /-- The directory around the place may not be written. -/
  | forbidden
  /-- A directory is there, and the path does not end in its name. -/
  | busy
deriving DecidableEq, Repr

/-- A refused operation on a path. -/
structure FileError where
  /-- Why it is refused. -/
  fault : FileFault
  /-- The path, as it was given. -/
  path : Text
  /-- The path that was to be replaced, where there is one. -/
  target : Option Text := none
deriving DecidableEq, Repr

/-- The number and the wording of a fault. -/
def FileFault.message : FileFault → Text
  | .missing => "[Errno 2] No such file or directory"
  | .exists => "[Errno 17] File exists"
  | .notDirectory => "[Errno 20] Not a directory"
  | .isDirectory => "[Errno 21] Is a directory"
  | .forbidden => "[Errno 13] Permission denied"
  | .busy => "[Errno 16] Device or resource busy"

/-- The message about a refused operation. -/
def FileError.message (e : FileError) : Text :=
  let place : Text := e.fault.message ++ ": " ++ e.path.quoted
  match e.target with
  | none => place
  | some t => place ++ " -> " ++ t.quoted

/-- The names on the way from the root. -/
abbrev Location := List Text

/-- A file system and the working directory. -/
structure Files where
  /-- The names on the way to the working directory. -/
  home : Location
  /-- The places with what is there; the root is not among them. -/
  entries : List (Location × Entry)
  /-- The directories that may not be written. -/
  closed : List Location
deriving DecidableEq, Repr

namespace Files

/-- What is at a location; the root is a directory. -/
def at? (fs : Files) (l : Location) : Option Entry :=
  if l.isEmpty then some .directory else (fs.entries.find? (·.1 = l)).map (·.2)

/-- Something new can be made at a location: the directory around it may be written. -/
def admits (fs : Files) (l : Location) : Bool := decide (l.dropLast ∉ fs.closed)

/-- The file system with an entry at a location. -/
def put (fs : Files) (l : Location) (e : Entry) : Files :=
  { fs with entries := (l, e) :: fs.entries.filter (·.1 ≠ l) }

/-- The file system with nothing at a location. -/
def erase (fs : Files) (l : Location) : Files :=
  { fs with entries := fs.entries.filter (·.1 ≠ l) }

/-- Follows names from a location: each step needs a directory. -/
def walk (fs : Files) (l : Location) : List Text → Except FileFault Location
  | [] => .ok l
  | name :: rest =>
    match fs.at? l with
    | some .directory => fs.walk (if name = ".." then l.dropLast else l ++ [name]) rest
    | some (.file _) => .error .notDirectory
    | none => .error .missing

/-- The location that a path leads to, where there may be nothing. -/
def locate (fs : Files) (p : Path) : Except FileFault Location :=
  fs.walk (if p.absolute then [] else fs.home) p.names

/-- What is at the end of a path. -/
def entry? (fs : Files) (p : Path) : Option Entry :=
  match fs.locate p with
  | .ok l => fs.at? l
  | .error _ => none

/-- Something is at the end of a path. -/
def has (fs : Files) (p : Path) : Bool := (fs.entry? p).isSome

/-- A directory is at the end of a path. -/
def hasDirectory (fs : Files) (p : Path) : Bool := fs.entry? p = some .directory

/-- A directory that may not be written is at the end of a path. -/
def isClosed (fs : Files) (p : Path) : Bool :=
  match fs.locate p with
  | .ok l => decide (l ∈ fs.closed)
  | .error _ => false

/-- The error about a path. -/
def fault (p : Path) (f : FileFault) : FileError := { fault := f, path := p.shown }

/-- The contents of a file. -/
def read (fs : Files) (p : Path) : Except FileError Bytes :=
  match fs.locate p with
  | .error f => .error (fault p f)
  | .ok l =>
    match fs.at? l with
    | some (.file bytes) => .ok bytes
    | some .directory => .error (fault p .isDirectory)
    | none => .error (fault p .missing)

/-- The location at which a file can be written: where one is already, or can be made. -/
def writable (fs : Files) (p : Path) : Except FileFault Location :=
  match fs.locate p with
  | .error f => .error f
  | .ok l =>
    match fs.at? l with
    | some .directory => .error .isDirectory
    | some (.file _) => .ok l
    | none => if fs.admits l then .ok l else .error .forbidden

/-- A file with new contents. -/
def write (fs : Files) (p : Path) (bytes : Bytes) : Except FileError Files :=
  match fs.writable p with
  | .error f => .error (fault p f)
  | .ok l => .ok (fs.put l (.file bytes))

/-- A new directory in an existing one. -/
def makeDirectory (fs : Files) (p : Path) : Except FileError Files :=
  match fs.locate p with
  | .error f => .error (fault p f)
  | .ok l =>
    match fs.at? l with
    | some _ => .error (fault p .exists)
    | none => if fs.admits l then .ok (fs.put l .directory) else .error (fault p .forbidden)

/-- A directory, with the directories around it: what is missing is made, from the outside in. The
number bounds how many are missing. What is made before one of them is refused stays. -/
def makeDirectoriesUpTo (fs : Files) (p : Path) : Nat → Except FileError Unit × Files
  | 0 => (.error (fault p .missing), fs)
  | n + 1 =>
    match fs.makeDirectory p with
    | .ok made => (.ok (), made)
    | .error e =>
      if e.fault = .missing then
        match fs.makeDirectoriesUpTo p.parent n with
        | (.error e, around) => (.error e, around)
        | (.ok (), around) =>
          match around.makeDirectory p with
          | .ok made => (.ok (), made)
          | .error e => (if around.hasDirectory p then .ok () else .error e, around)
      else (if fs.hasDirectory p then .ok () else .error e, fs)

/-- A directory, with the directories around it. -/
def makeDirectories (fs : Files) (p : Path) : Except FileError Unit × Files :=
  fs.makeDirectoriesUpTo p (p.names.length + 1)

/-- The text of bytes, with unified line endings. -/
def textOf (bytes : Bytes) : Except Utf8.DecodeError Text := (Utf8.decode bytes).map Text.unifyLines

/-- Everything below a location, as names from there on. -/
def below (fs : Files) (l : Location) : List (List Text × Entry) :=
  fs.entries.filterMap fun (place, e) =>
    if l.isPrefixOf place && l ≠ place then some (place.drop l.length, e) else none

/-- The places below the working directory in order, directories with a slash behind them. -/
def list (fs : Files) : List Text :=
  let shown (names : List Text) (e : Entry) : Text :=
    let path := Text.join "/" names
    if e = .directory then path ++ "/" else path
  ((fs.below fs.home).map fun (names, e) => shown names e).mergeSort Text.le

end Files

end PushButton
