import PushButton.Text.Quoted

/-!
# Paths

A path is a row of names, from the root of the file system or from the working directory. Empty
names and single dots are dropped when a path is read; a pair of dots is kept, because what it leads
to depends on the directories there are.
-/

namespace PushButton

/-- A path: names from the root, or from the working directory. -/
structure Path where
  /-- The path starts at the root. -/
  absolute : Bool
  /-- The names. -/
  names : List Text
deriving DecidableEq, Repr

namespace Path

/-- A name that leads somewhere. -/
def isName (t : Text) : Bool := !t.isEmpty && t != "."

/-- The path that a text stands for. -/
def ofText (t : Text) : Path :=
  ⟨t.head? = some (.char '/'), (Text.splitOn (.char '/') t).filter isName⟩

/-- A path as text. -/
def shown (p : Path) : Text :=
  if p.absolute then .char '/' :: Text.join "/" p.names
  else if p.names.isEmpty then "."
  else Text.join "/" p.names

/-- The directory around the place of a path. -/
def parent (p : Path) : Path := { p with names := p.names.dropLast }

/-- A path ends in the name of its place, and not in a pair of dots. -/
def isNamed (p : Path) : Bool := p.names.getLast?.any fun (name : Text) => name != ".."

/-- A path from a directory on; a path from the root stays as it is. -/
def under (p home : Path) : Path :=
  if p.absolute then p else { home with names := home.names ++ p.names }

/-- The names of a path with each pair of dots taking back the name in front of it. -/
def collapse (names : List Text) : List Text :=
  names.foldl (fun (acc : List Text) (n : Text) => if n = ".." then acc.dropLast else acc ++ [n]) []

/-- A path from a directory on, without pairs of dots. -/
def resolved (p home : Path) : Path := { home with names := collapse (p.under home).names }

end Path

end PushButton
