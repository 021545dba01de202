import PushButton.Data.Datum
import PushButton.Workflow.Action

/-!
# The format of workflows

A document describes a workflow when it is a mapping with a text as label and a list of actions,
each with an id, one of the names of the kinds as type, and parameters. What is absent has a
default; numbers are accepted as ids, and parameters may have any values, which become texts. A
document that is refused is refused with one problem for each of its defects, in the order of the
document.
-/

namespace PushButton

/-- A step from a document to a part of it. -/
inductive Place where
  /-- The value of a field. -/
  | field (name : Text)
  /-- An item of a list. -/
  | index (n : Nat)
deriving DecidableEq, Repr

/-- What is wrong with a part of a document. -/
inductive Complaint where
  /-- The part is no text. -/
  | notText
  /-- The part is no text that can be encoded. -/
  | notEncodable
  /-- The part is no list. -/
  | notList
  /-- The part is no action. -/
  | notAction
  /-- The part is no mapping. -/
  | notMapping
  /-- The part is missing. -/
  | missing
  /-- The part is no name of a kind. -/
  | notKind
  /-- The part would have to be written with an integer that has too many digits. -/
  | tooManyDigits
deriving DecidableEq, Repr

/-- A complaint about a part of a document. -/
structure Problem where
  /-- The way to the part. -/
  place : List Place
  /-- What is wrong with it. -/
  complaint : Complaint
deriving DecidableEq, Repr

/-- The wording of a complaint. -/
def Complaint.message : Complaint → Text
  | .notText => "Input should be a valid string"
  | .notEncodable => "Input should be a valid string, unable to parse raw data as a unicode string"
  | .notList => "Input should be a valid list"
  | .notAction => "Input should be a valid dictionary or instance of Action"
  | .notMapping => "Input should be a valid dictionary"
  | .missing => "Field required"
  | .notKind => "Input should be " ++ Text.choices (ActionKind.all.map ActionKind.name)
  | .tooManyDigits => "Value error, " ++ Text.tooManyDigits none

/-- A step as text. -/
def Place.shown : Place → Text
  | .field name => name
  | .index n => Text.ofNat n

/-- A problem as text. -/
def Problem.message (p : Problem) : Text :=
  Text.join "." (p.place.map Place.shown) ++ ": " ++ p.complaint.message

/-- A problem of a part as a problem of the whole. -/
def Problem.under (place : Place) (p : Problem) : Problem := ⟨place :: p.place, p.complaint⟩

/-- A value, or every problem that stands in its way. -/
abbrev Checked (α : Type) := Except (List Problem) α

namespace Checked

/-- A single complaint about the part itself. -/
def refuse {α : Type} (c : Complaint) : Checked α := .error [⟨[], c⟩]

/-- The problems of a part as problems of the whole. -/
def under {α : Type} (place : Place) (c : Checked α) : Checked α :=
  c.mapError (List.map (Problem.under place))

/-- Both values, or the problems of both. -/
def both {α β : Type} (a : Checked α) (b : Checked β) : Checked (α × β) :=
  match a, b with
  | .ok x, .ok y => .ok (x, y)
  | .ok _, .error q => .error q
  | .error p, .ok _ => .error p
  | .error p, .error q => .error (p ++ q)

/-- Every item of a list checked, with its index from a number on. -/
def items {α β : Type} (check : α → Checked β) (index : Nat) : List α → Checked (List β)
  | [] => .ok []
  | x :: rest =>
    (both (under (.index index) (check x)) (items check (index + 1) rest)).map fun (y, ys) =>
      y :: ys

/-- A text, which may be given as the bytes of its UTF-8 form. -/
def text : Datum → Checked Text
  | .text t => .ok t
  | .bytes b =>
    match Utf8.decode b with
    | .ok t => .ok t
    | .error _ => .refuse .notEncodable
  | _ => .refuse .notText

/-- An id: a text, or a number, which becomes its text. -/
def id : Datum → Checked Text
  | .int n => if Text.isTooLong n then .refuse .tooManyDigits else .ok (Text.ofInt n)
  | .float x => .ok (Decimal.written x)
  | d => text d

/-- The name of a kind. -/
def kind (d : Datum) : Checked ActionKind :=
  match d, text d with
  | .text t, _ =>
    if t.all Symbol.isChar then
      match ActionKind.ofName? t with
      | some k => .ok k
      | none => .refuse .notKind
    else .refuse .notEncodable
  | _, .ok t =>
    match ActionKind.ofName? t with
    | some k => .ok k
    | none => .refuse .notKind
  | _, .error _ => .refuse .notKind

/-- The text of the value of a parameter; truth values are written in small letters. -/
def paramText : Datum → Text
  | .bool b => if b then "true" else "false"
  | d => d.shown

/-- The parameters with those of one more entry; an entry without a value is left out. -/
def putParam (params : List (Text × Text)) : Datum × Datum → List (Text × Text)
  | (_, .null) => params
  | (key, value) => Json.put key.shown (paramText value) params

/-- The parameters of a mapping; entries without a value are left out. -/
def paramsOf (entries : List (Datum × Datum)) : List (Text × Text) := entries.foldl putParam []

/-- An entry has a value, but it or its key has no text. -/
def isUnwritableParam : Datum × Datum → Bool
  | (_, .null) => false
  | (key, value) => key.isUnwritable || value.isUnwritable

/-- Parameters: nothing, or a mapping. -/
def params : Datum → Checked (Option (List (Text × Text)))
  | .null => .ok none
  | .map entries =>
    if entries.any isUnwritableParam then .refuse .tooManyDigits
    else .ok (some (paramsOf entries))
  | _ => .refuse .notMapping

/-- A field that has to be there. -/
def required {α : Type} (name : Text) (check : Datum → Checked α)
    (entries : List (Datum × Datum)) : Checked α :=
  Checked.under (.field name) (match Datum.entry? name entries with
    | some d => check d
    | none => .refuse .missing)

/-- A field that has a default. -/
def optional {α : Type} (name : Text) (check : Datum → Checked α) (default : α)
    (entries : List (Datum × Datum)) : Checked α :=
  match Datum.entry? name entries with
  | some d => Checked.under (.field name) (check d)
  | none => .ok default

/-- An action: a mapping with an id, a type and parameters. -/
def action : Datum → Checked Action
  | .map entries =>
    let parts := both (required "id" id entries)
      (both (required "type" kind entries) (optional "params" params none entries))
    parts.map fun (i, k, ps) => ⟨i, k, ps⟩
  | _ => .refuse .notAction

/-- The actions of a workflow; a set of values counts as a list. -/
def actions : Datum → Checked (List Action)
  | .list ds => Checked.items action 0 ds
  | .set ds => Checked.items action 0 ds
  | _ => .refuse .notList

/-- The label, under its stored name or under its plain name. -/
def label (entries : List (Datum × Datum)) : Checked Text :=
  if (Datum.entry? "buttonLabel" entries).isSome then
    optional "buttonLabel" text Workflow.standardLabel entries
  else optional "button_label" text Workflow.standardLabel entries

end Checked

/-- Why a document describes no workflow. -/
inductive Rejection where
  /-- The document is no mapping. -/
  | notMapping
  /-- The document has problems, at least one. -/
  | problems (ps : List Problem)
deriving DecidableEq, Repr

/-- The message about a document from a source. -/
def Rejection.message (source : Text) : Rejection → Text
  | .notMapping => "Workflow " ++ source ++ " must define a mapping/object at the top level."
  | .problems ps =>
    Text.join "\n" (("Invalid workflow " ++ source ++ ":") :: ps.map fun p => "  - " ++ p.message)

namespace Workflow

/-- The workflow that a document describes. -/
def ofDatum : Datum → Except Rejection Workflow
  | .map entries =>
    let actions := Checked.optional "actions" Checked.actions [] entries
    match Checked.both (Checked.label entries) actions with
    | .ok (l, as) => .ok ⟨l, as⟩
    | .error ps => .error (.problems ps)
  | _ => .error .notMapping

/-- The workflow that a JSON value describes. -/
def ofJson (value : Json) : Except Rejection Workflow := ofDatum (.ofJson value)

end Workflow

end PushButton
