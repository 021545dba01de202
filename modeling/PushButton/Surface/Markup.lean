import PushButton.Surface.Style

/-!
# Markup

A text with markup holds tags between square brackets, which begin with a small letter or with one
of `#`, `/` and `@`. A tag opens a style, and a tag that begins with a slash closes one. Backslashes
in front of a tag are read in pairs, one of each pair standing for itself; one that is left over
makes the tag an ordinary text.
-/

namespace PushButton

/-- Why markup has no meaning. -/
inductive MarkupError where
  /-- A tag at a position closes what is not open. -/
  | unmatched (tag : Text) (position : Nat)
  /-- A tag at a position closes the last open tag, and none is open. -/
  | nothingOpen (position : Nat)
deriving DecidableEq, Repr

/-- The wording of an error. -/
def MarkupError.message : MarkupError → Text
  | .unmatched tag position =>
    "closing tag '[" ++ tag ++ "]' at position " ++ Text.ofNat position ++
      " doesn't match any open tag"
  | .nothingOpen position =>
    "closing tag '[/]' at position " ++ Text.ofNat position ++ " has nothing to close"

namespace Markup

/-- A symbol with which a tag begins. -/
def opens (s : Symbol) : Bool :=
  s.within 'a' 'z' || s = .char '#' || s = .char '/' || s = .char '@'

/-- What stands in front of the first closing bracket, if no opening bracket comes before. -/
def inside? : Text → Option Text
  | [] => none
  | s :: rest =>
    if s = .char ']' then some []
    else if s = .char '[' then none
    else (inside? rest).map (s :: ·)

/-- The tag with which a text begins, behind its opening bracket. -/
def tag? : Text → Option Text
  | [] => none
  | s :: rest => if opens s then (inside? rest).map (s :: ·) else none

/-- A number of backslashes. -/
def slashes (n : Nat) : Text := List.replicate n (.char '\\')

/-- A text with every tag made an ordinary text, after a number of backslashes. -/
def protectFrom (pending : Nat) : Text → Text
  | [] => slashes pending
  | s :: rest =>
    if s = .char '\\' then protectFrom (pending + 1) rest
    else if s = .char '[' && (tag? rest).isSome then
      slashes (2 * pending + 1) ++ s :: protectFrom 0 rest
    else slashes pending ++ s :: protectFrom 0 rest

/-- A text with every tag made an ordinary text. A single backslash at the end is doubled, so that
it has no effect on what follows. -/
def escape (t : Text) : Text :=
  let t := protectFrom 0 t
  match t.reverse with
  | [] => t
  | [last] => if last = .char '\\' then t ++ [last] else t
  | last :: before :: _ =>
    if last = .char '\\' && before ≠ .char '\\' then t ++ [last] else t

/-- The open styles after a tag at a position; the last one that was opened comes first. -/
def apply (tag : Text) (position : Nat) (opened : List Text) : Except MarkupError (List Text) :=
  let name := ((Text.cut? (.char '=') tag).map (·.1)).getD tag
  match Text.after? name "/" with
  | none => .ok (Style.normal name :: opened)
  | some closed =>
    let closed := closed.strip
    if closed.isEmpty then
      match opened with
      | [] => .error (.nothingOpen position)
      | _ :: rest => .ok rest
    else if opened.contains (Style.normal closed) then .ok (opened.erase (Style.normal closed))
    else .error (.unmatched tag position)

/-- The meaning of a text that begins at a position, with some open styles, after a number of
backslashes, and with a number of symbols of a tag that are still to come. -/
def resolveFrom (position : Nat) (opened : List Text) (pending : Nat) (skipped : Nat) :
    Text → Except MarkupError Text
  | [] => .ok (slashes pending)
  | s :: rest =>
    match skipped with
    | n + 1 => resolveFrom (position + 1) opened 0 n rest
    | 0 =>
      if s = .char '\\' then resolveFrom (position + 1) opened (pending + 1) 0 rest
      else if s = .char '[' then
        match tag? rest with
        | none =>
          (resolveFrom (position + 1) opened 0 0 rest).map fun t => slashes (pending - 1) ++ s :: t
        | some tag =>
          if pending % 2 = 1 then
            (resolveFrom (position + 1) opened 0 0 rest).map fun t =>
              slashes (pending / 2) ++ s :: t
          else
            match apply tag position opened with
            | .error e => .error e
            | .ok opened =>
              (resolveFrom (position + 1) opened 0 (tag.length + 1) rest).map fun t =>
                slashes (pending / 2) ++ t
      else (resolveFrom (position + 1) opened 0 0 rest).map fun t => slashes pending ++ s :: t

/-- A control character that is not shown: bell, backspace, vertical tab, form feed and carriage
return. -/
def isHidden (s : Symbol) : Bool := [7, 8, 11, 12, 13].contains s.code

/-- A text as it is shown. -/
def visible (t : Text) : Text := t.filter fun s => !isHidden s

/-- The meaning of a text with markup. -/
def resolve (t : Text) : Except MarkupError Text := (resolveFrom 0 [] 0 0 t).map visible

end Markup

end PushButton
