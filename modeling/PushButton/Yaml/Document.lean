import PushButton.Bytes.Base64
import PushButton.Yaml.Node
import PushButton.Yaml.Timestamp

/-!
# The data of a document

Each node becomes a datum, as its tag says. Of several flaws the one on the outermost level is
reported, and of those on one level the first: the parts of a collection are on the level below it.
The entries of a mapping under a merge key come in front of the mapping's own.
-/

namespace PushButton

namespace Yaml

/-- A value, or the outermost flaw with its level. -/
abbrev Built (α : Type) := Except (Nat × Flaw) α

namespace Built

/-- Both values, or the outermost flaw of the two, the first one on the same level. -/
def both {α β : Type} (a : Built α) (b : Built β) : Built (α × β) :=
  match a, b with
  | .ok x, .ok y => .ok (x, y)
  | .ok _, .error f => .error f
  | .error e, .ok _ => .error e
  | .error e, .error f => .error (if f.1 < e.1 then f else e)

/-- A malformed part on a level. -/
def refuse {α : Type} (level : Nat) : Built α := .error (level, .malformed)

/-- All values, or the outermost flaw, the first one on the same level. -/
def all {α : Type} : List (Built α) → Built (List α)
  | [] => .ok []
  | b :: rest => (both b (all rest)).map fun (x, xs) => x :: xs

end Built

/-! ## Scalars -/

/-- A number without underscores as its sign and what follows. -/
def signedNumber (t : Text) : Except Conversion (Bool × Text) :=
  match t.filter (· ≠ .char '_') with
  | [] => .error .emptyNumber
  | .char '-' :: rest => .ok (true, rest)
  | .char '+' :: rest => .ok (false, rest)
  | rest => .ok (false, rest)

/-- The integer that a numeral of a base stands for. -/
def integerOf (base : Nat) (t : Text) : Except Conversion Int :=
  match Text.readInt? base t with
  | none => .error (.integer base t)
  | some n =>
    let count := (t.filter fun s => s.decimal?.isSome).length
    if base = 10 && count > Text.maxDigits then .error (.tooManyDigits count) else .ok n

/-- The value of a number given in groups, the least one last, each sixty times the next. -/
def ofSixtieths (groups : List Int) : Int := groups.foldl (fun n d => 60 * n + d) 0

/-- The integer of a scalar: in base two behind `0b`, sixteen behind `0x`, eight behind another
zero, else in base ten or in groups of sixty. -/
def integer (t : Text) : Except Conversion Int := do
  let (negative, digits) ← signedNumber t
  let n ← match digits with
    | [] => .error .emptyNumber
    | [.char '0'] => .ok 0
    | .char '0' :: .char 'b' :: rest => integerOf 2 rest
    | .char '0' :: .char 'x' :: rest => integerOf 16 rest
    | .char '0' :: _ => integerOf 8 digits
    | _ =>
      if digits.contains (.char ':') then do
        let groups ← (Text.splitOn (.char ':') digits).mapM (integerOf 10)
        pure (ofSixtieths groups)
      else integerOf 10 digits
  pure (if negative then -n else n)

/-- The number of a text. -/
def floatOf (t : Text) : Except Conversion Float :=
  match Decimal.readFloat? t with
  | none => .error (.float t)
  | some x => .ok x

/-- The value of groups, the least one first, each sixty times the one in front of it. -/
def sumSixtieths : Nat → List Float → Float → Float
  | _, [], sum => sum
  | base, x :: rest, sum => sumSixtieths (base * 60) rest (sum + x * Float.ofNat base)

/-- The most groups of sixty in which a floating-point number is given: the value of one more is too
large to be such a number. -/
def maxGroups : Nat := 174

/-- The floating-point number of a scalar. -/
def float (t : Text) : Except Conversion Float := do
  let (negative, digits) ← signedNumber (Text.lowerAscii t)
  let sign : Float := if negative then -1 else 1
  if digits = ".inf" then pure (sign * (1 / 0))
  else if digits = ".nan" then pure (0 / 0)
  else if digits.contains (.char ':') then do
    let groups ← (Text.splitOn (.char ':') digits).mapM floatOf
    if groups.length > maxGroups then .error .tooManyGroups
    else pure (sign * sumSixtieths 1 groups.reverse 0)
  else do
    let x ← floatOf digits
    pure (sign * x)

/-- The truth value of a scalar. -/
def truth (t : Text) : Except Conversion Bool :=
  let word := Text.lowerAscii t
  if word = "yes" || word = "true" || word = "on" then .ok true
  else if word = "no" || word = "false" || word = "off" then .ok false
  else .error (.bool word)

/-- The bytes of a scalar in base 64. -/
def binary (t : Text) : Except Flaw Bytes :=
  if t.any fun s => s.code ≥ 128 then .error .malformed
  else
    match Base64.decode? t with
    | none => .error .malformed
    | some bytes => .ok bytes

/-- The datum of a scalar. -/
def scalarDatum (tag : Tag) (t : Text) : Except Flaw Datum :=
  match tag with
  | .null => .ok .null
  | .bool => ((truth t).map .bool).mapError .conversion
  | .int => ((integer t).map .int).mapError .conversion
  | .float => ((float t).map .float).mapError .conversion
  | .binary => (binary t).map .bytes
  | .timestamp => (timestamp t).mapError .conversion
  | .text => .ok (.text t)
  | _ => .error .malformed

/-! ## Collections -/

/-- The most mappings in a row that are looked into for one scalar. -/
def maxLookups : Nat := 950

/-- The text of a node that stands for a scalar: a scalar, or a mapping whose value for `=` stands
for one, behind a number of mappings that were looked into. One of these mappings may stand inside
itself. -/
def scalarText (lookups : Nat) : Node → Except Flaw Text
  | .scalar _ t => .ok t
  | .mapping _ pairs => if maxLookups ≤ lookups then .error .tooDeep else inPairs lookups pairs
  | .sequence _ _ => .error .malformed
  | .enclosing isMap distance =>
    if isMap && distance < lookups then .error .tooDeep else .error .malformed
where
  /-- The text under the key `=`. -/
  inPairs (lookups : Nat) : List (Node × Node) → Except Flaw Text
    | [] => .error .malformed
    | (.scalar .value _, v) :: _ => scalarText (lookups + 1) v
    | _ :: rest => inPairs lookups rest

/-- The tag of a node. -/
def Node.tag : Node → Tag
  | .scalar tag _ => tag
  | .sequence tag _ => tag
  | .mapping tag _ => tag
  | .enclosing isMap _ => if isMap then .mapping else .sequence

/-- The datum of a node that is no collection by its tag. The text of a timestamp must not be that
of a mapping. -/
def leafValue (n : Node) : Except Flaw Datum := do
  let t ← scalarText 0 n
  match n, n.tag with
  | .mapping _ _, .timestamp => .error (.conversion .mappedTimestamp)
  | _, tag => scalarDatum tag t

/-- The datum of such a node whose place is on a level. -/
def leafDatum (level : Nat) (n : Node) : Built Datum := (leafValue n).mapError fun f => (level, f)

/-- A key, which must be no collection, with its value. -/
def entryOf (level : Nat) (key : Node) (k v : Built Datum) : Built (Datum × Datum) :=
  let checked := (Built.both k (.refuse level : Built Datum)).map (·.1)
  .both (if key.tag.isCollection then checked else k) v

/-- The entries taken over by merge keys, and the own entries. -/
structure Entries where
  /-- A merge key has no mappings to take over. -/
  broken : Bool := false
  /-- The entries taken over. -/
  merged : List (Built (Datum × Datum)) := []
  /-- The own entries. -/
  own : List (Built (Datum × Datum)) := []

/-- All entries, those taken over first. -/
def Entries.all (level : Nat) (e : Entries) : Built (List (Datum × Datum)) :=
  if e.broken then .refuse level
  else (Built.all (e.merged ++ e.own)).map (List.foldl (fun m (k, v) => Datum.putEntry k v m) [])

mutual

/-- The datum of a node whose place is on a level. -/
def build (level : Nat) : Node → Built Datum
  | .enclosing isMap _ => .ok (.again isMap)
  | .scalar tag t =>
    if tag.isCollection then .refuse (level + 1) else leafDatum level (.scalar tag t)
  | .sequence tag items =>
    match tag with
    | .sequence => (Built.all (buildItems (level + 1) items)).map .list
    | .orderedMap | .pairs => (Built.all (buildPairs (level + 1) items)).map .list
    | .mapping | .set => .refuse (level + 1)
    | _ => .refuse level
  | .mapping tag pairs =>
    match tag with
    | .mapping => ((buildEntries (level + 1) pairs).all (level + 1)).map .map
    | .set =>
      ((buildEntries (level + 1) pairs).all (level + 1)).map fun es => .set (es.map (·.1))
    | .sequence | .orderedMap | .pairs => .refuse (level + 1)
    | _ => leafDatum level (.mapping tag pairs)

/-- The data of nodes. -/
def buildItems (level : Nat) : List Node → List (Built Datum)
  | [] => []
  | n :: rest => build level n :: buildItems level rest

/-- The pairs of nodes that are mappings with one entry each. -/
def buildPairs (level : Nat) : List Node → List (Built Datum)
  | [] => []
  | .mapping _ [(k, v)] :: rest =>
    (Built.both (build level k) (build level v)).map (fun (a, b) => .pair a b) ::
      buildPairs level rest
  | _ :: rest => .refuse level :: buildPairs level rest

/-- The entries of a mapping. -/
def buildEntries (level : Nat) : List (Node × Node) → Entries
  | [] => {}
  | (k, v) :: rest =>
    let others := buildEntries level rest
    if k.tag = .merge then
      match v with
      | .mapping _ pairs =>
        let e := buildEntries level pairs
        { others with
          broken := e.broken || others.broken, merged := e.merged ++ e.own ++ others.merged }
      | .sequence _ items =>
        let e := buildMerged level items
        { others with broken := e.broken || others.broken, merged := e.merged ++ others.merged }
      | .enclosing true _ => others
      | _ => { others with broken := true }
    else
      let key : Built Datum :=
        if k.tag = .value then
          match k with
          | .scalar _ t => .ok (.text t)
          | n => leafDatum level n
        else build level k
      { others with own := entryOf level k key (build level v) :: others.own }

/-- The entries of several mappings, those of the last one first. -/
def buildMerged (level : Nat) : List Node → Entries
  | [] => {}
  | .mapping _ pairs :: rest =>
    let e := buildEntries level pairs
    let others := buildMerged level rest
    { broken := e.broken || others.broken, merged := others.merged ++ e.merged ++ e.own }
  | .enclosing true _ :: rest => buildMerged level rest
  | _ :: _ => { broken := true }

end

/-- The data of a document; no document holds no value. -/
def read (t : Text) : Except Flaw Datum := do
  match ← Node.ofText t with
  | none => pure .null
  | some n => (build 0 n).mapError (·.2)

end Yaml

end PushButton
