import PushButton.Yaml.Tag
import PushButton.Yaml.Token

/-!
# Nodes of a document

The tokens of a document are put together to a tree of nodes. A node can be given a name and can
stand again, by that name, further on; a name that is used inside its own node stands for the node
around it. Nodes may be nested up to a depth.
-/

namespace PushButton

namespace Yaml

/-- A node of a document. -/
inductive Node where
  /-- A scalar. -/
  | scalar (tag : Tag) (text : Text)
  /-- Nodes in a row. -/
  | sequence (tag : Tag) (items : List Node)
  /-- Keys with values. -/
  | mapping (tag : Tag) (pairs : List (Node × Node))
  /-- A sequence, or a mapping, around the place, with a number of others in between. -/
  | enclosing (isMap : Bool) (distance : Nat)
deriving Repr, Inhabited

/-- What is known while a document is read: the tokens that are left, the named nodes and the
handles of tags. -/
structure Reader where
  /-- The tokens that are left. -/
  tokens : List Token
  /-- The flaw behind the last token, where there is one. -/
  ending : Option Flaw
  /-- The number of sequences and mappings around the place. -/
  depth : Nat := 0
  /-- The named nodes; one that is around the place, with the number of those around it. -/
  anchors : List (Text × Node) := []
  /-- The handles of tags with what they stand for. -/
  handles : List (Text × Text) := [("!", "!"), ("!!", Tag.standard)]

/-- How deep nodes may be nested. -/
def maxDepth : Nat := 480

/-- A step of reading. -/
abbrev Read (α : Type) := StateT Reader (Except Flaw) α

namespace Read

/-- Refuses the document. -/
def refuse {α : Type} : Read α := throw .malformed

/-- The next token. -/
def peek : Read Token := do
  let r ← get
  match r.tokens with
  | t :: _ => pure t
  | [] => throw (r.ending.getD .malformed)

/-- Passes over a token. -/
def drop : Read Unit := modify fun r => { r with tokens := r.tokens.drop 1 }

/-- The next token is one of a list. -/
def sees (ts : List Token) : Read Bool := do
  let t ← peek
  pure (ts.contains t)

/-- Passes over the next token when it is a given one. -/
def take? (t : Token) : Read Bool := do
  if (← peek) = t then
    drop
    pure true
  else pure false

/-- Passes over a token that has to stand here. -/
def expect (t : Token) : Read Unit := do
  if !(← take? t) then refuse

/-- A step inside of one more sequence or mapping. -/
def nested {α : Type} (inside : Read α) : Read α := do
  if maxDepth ≤ (← get).depth then throw .tooDeep
  modify fun r => { r with depth := r.depth + 1 }
  let x ← inside
  modify fun r => { r with depth := r.depth - 1 }
  pure x

/-- Gives a name to a node. -/
def name (anchor : Option Text) (n : Node) : Read Unit :=
  match anchor with
  | none => pure ()
  | some a => modify fun r => { r with anchors := (a, n) :: r.anchors }

/-- Gives a name to the sequence or mapping around the place. -/
def nameEnclosing (anchor : Option Text) (isMap : Bool) : Read Unit := do
  name anchor (.enclosing isMap (← get).depth)

/-- The node of a name. -/
def named (anchor : Text) : Read Node := do
  let r ← get
  match r.anchors.find? (·.1 = anchor) with
  | some (_, .enclosing isMap depth) => pure (.enclosing isMap (r.depth - depth))
  | some (_, n) => pure n
  | none => refuse

/-- The name of a node, where there is one; it must be new. -/
def newName (anchor : Option Text) : Read Unit := do
  let r ← get
  if anchor.any fun a => r.anchors.any (·.1 = a) then refuse

/-- The text of a tag whose handle is known. -/
def tagText (handle : Option Text) (suffix : Text) : Read Text := do
  match handle with
  | none => pure suffix
  | some h =>
    match (← get).handles.find? (·.1 = h) with
    | some (_, start) => pure (start ++ suffix)
    | none => refuse

/-- The name and the tag in front of a node, in either order. -/
def properties : Read (Option Text × Option Text) := do
  let anchor? : Read (Option Text) := do
    match ← peek with
    | .anchor a =>
      drop
      pure (some a)
    | _ => pure none
  let tag? : Read (Option (Option Text × Text)) := do
    match ← peek with
    | .tag handle suffix =>
      drop
      pure (some (handle, suffix))
    | _ => pure none
  let resolve : Option (Option Text × Text) → Read (Option Text)
    | none => pure none
    | some (handle, suffix) => some <$> tagText handle suffix
  match ← anchor? with
  | some a => do
    let tag ← resolve (← tag?)
    pure (some a, tag)
  | none => do
    let tag ← tag?
    let anchor ← if tag.isSome then anchor? else pure none
    let tag ← resolve tag
    pure (anchor, tag)

/-- The tag of a node that is no scalar: the given one, or the usual one of its kind. -/
def kindTag (tag : Option Text) (usual : Tag) : Tag :=
  match tag with
  | none => usual
  | some t => if t = "!" then usual else .ofText t

/-- The tag of a scalar: the given one, or one by its text when it is plain. -/
def scalarTag (tag : Option Text) (plain : Bool) (text : Text) : Tag :=
  match tag with
  | none => if plain then .ofPlain text else .text
  | some t => if t = "!" then .ofPlain text else .ofText t

/-- A missing node. -/
def missing : Node := .scalar .null []

end Read

open Read

/-- Where a node stands. -/
inductive Position where
  /-- In brackets. -/
  | flow
  /-- In a block, where a block can begin. -/
  | block
  /-- After a key or value mark in a block, where also entries without indentation can begin. -/
  | field
deriving DecidableEq

mutual

/-- The node at the place. -/
def readNode : Nat → Position → Read Node
  | 0, _ => refuse
  | fuel + 1, position => do
    match ← peek with
    | .alias a =>
      drop
      named a
    | _ =>
      let (anchor, tag) ← properties
      let items (read : Read (List Node)) : Read Node := do
        newName anchor
        let items ← nested (do nameEnclosing anchor false; read)
        let n := Node.sequence (kindTag tag .sequence) items
        name anchor n
        pure n
      let pairs (read : Read (List (Node × Node))) : Read Node := do
        newName anchor
        let pairs ← nested (do nameEnclosing anchor true; read)
        let n := Node.mapping (kindTag tag .mapping) pairs
        name anchor n
        pure n
      match ← peek, position with
      | .entry, .field => items (readLooseEntries fuel)
      | .scalar plain text, _ => do
        drop
        newName anchor
        let n := Node.scalar (scalarTag tag plain text) text
        name anchor n
        pure n
      | .flowSequence, _ => do
        drop
        items (readFlowItems fuel true)
      | .flowMapping, _ => do
        drop
        pairs (readFlowPairs fuel true)
      | t, position =>
        if t = .blockSequence && position ≠ .flow then do
          drop
          items (readEntries fuel)
        else if t = .blockMapping && position ≠ .flow then do
          drop
          pairs (readPairs fuel)
        else if anchor.isSome || tag.isSome then do
          newName anchor
          let n := Node.scalar (kindTag tag .null) []
          name anchor n
          pure n
        else refuse

/-- A node, or a missing one in front of one of some tokens. -/
def readUnless : Nat → List Token → Position → Read Node
  | 0, _, _ => refuse
  | fuel + 1, ends, position => do
    if ← sees ends then pure missing else readNode fuel position

/-- The entries of a block. -/
def readEntries : Nat → Read (List Node)
  | 0 => refuse
  | fuel + 1 => do
    if ← take? .entry then do
      let n ← readUnless fuel [.entry, .blockEnd] .block
      let rest ← readEntries fuel
      pure (n :: rest)
    else do
      expect .blockEnd
      pure []

/-- The entries of a sequence that is not indented. -/
def readLooseEntries : Nat → Read (List Node)
  | 0 => refuse
  | fuel + 1 => do
    if ← take? .entry then do
      let n ← readUnless fuel [.entry, .key, .value, .blockEnd] .block
      let rest ← readLooseEntries fuel
      pure (n :: rest)
    else pure []

/-- The keys and values of a block. -/
def readPairs : Nat → Read (List (Node × Node))
  | 0 => refuse
  | fuel + 1 => do
    let ends : List Token := [.key, .value, .blockEnd]
    if ← take? .blockEnd then pure []
    else do
      expect .key
      let k ← readUnless fuel ends .field
      let v ← if ← take? .value then readUnless fuel ends .field else pure missing
      let rest ← readPairs fuel
      pure ((k, v) :: rest)

/-- The nodes up to a closing bracket; a key makes a mapping of one pair. -/
def readFlowItems : Nat → Bool → Read (List Node)
  | 0, _ => refuse
  | fuel + 1, first => do
    if ← take? .flowSequenceEnd then pure []
    else do
      if !first then expect .comma
      if ← take? .key then do
        let pair ← nested do
          let k ← readUnless fuel [.value, .comma, .flowSequenceEnd] .flow
          let v ← if ← take? .value then readUnless fuel [.comma, .flowSequenceEnd] .flow
            else pure missing
          pure (k, v)
        let rest ← readFlowItems fuel false
        pure (.mapping .mapping [pair] :: rest)
      else if ← take? .flowSequenceEnd then pure []
      else do
        let n ← readNode fuel .flow
        let rest ← readFlowItems fuel false
        pure (n :: rest)

/-- The keys and values up to a closing brace; a node without a mark is a key without a value. -/
def readFlowPairs : Nat → Bool → Read (List (Node × Node))
  | 0, _ => refuse
  | fuel + 1, first => do
    if ← take? .flowMappingEnd then pure []
    else do
      if !first then expect .comma
      if ← take? .key then do
        let k ← readUnless fuel [.value, .comma, .flowMappingEnd] .flow
        let v ← if ← take? .value then readUnless fuel [.comma, .flowMappingEnd] .flow
          else pure missing
        let rest ← readFlowPairs fuel false
        pure ((k, v) :: rest)
      else if ← take? .flowMappingEnd then pure []
      else do
        let k ← readNode fuel .flow
        let rest ← readFlowPairs fuel false
        pure ((k, missing) :: rest)

end

/-- The directives in front of a document: at most one version, which is 1, and handles that differ
from each other. -/
def readDirectives : Nat → Bool → List (Text × Text) → Read (List (Text × Text))
  | 0, _, _ => refuse
  | fuel + 1, versioned, handles => do
    match ← peek with
    | .directive (.version major) =>
      if versioned || major ≠ 1 then refuse
      drop
      readDirectives fuel true handles
    | .directive (.tag handle start) =>
      if handles.any (·.1 = handle) then refuse
      drop
      readDirectives fuel versioned ((handle, start) :: handles)
    | .directive .other =>
      drop
      readDirectives fuel versioned handles
    | _ => pure handles

/-- Passes over marks of the end of a document. -/
def dropDocumentEnds : Nat → Read Unit
  | 0 => pure ()
  | fuel + 1 => do
    if ← take? .documentEnd then dropDocumentEnds fuel

/-- The node of the only document of a text, where there is a document. -/
def readDocument (fuel : Nat) : Read (Option Node) := do
  let first ← peek
  let node ← match first with
    | .finish => return none
    | .directive _ | .documentStart => do
      let handles ← readDirectives fuel false []
      modify fun r => { r with handles := handles ++ r.handles }
      expect .documentStart
      match ← peek with
      | .directive _ | .documentStart | .documentEnd | .finish => pure missing
      | _ => readNode fuel .block
    | _ => readNode fuel .block
  dropDocumentEnds fuel
  if ← take? .finish then pure (some node) else refuse

/-- A symbol that may stand in a document. -/
def isAllowed (s : Symbol) : Bool :=
  let n := s.code
  n = 9 || n = 10 || n = 13 || (0x20 ≤ n && n ≤ 0x7E) || n = 0x85 || (0xA0 ≤ n && n < 0xD800) ||
    (0xE000 ≤ n && n ≤ 0xFFFD) || 0x10000 ≤ n

/-- The node of a text, where it holds one. -/
def Node.ofText (t : Text) : Except Flaw (Option Node) :=
  if !t.all isAllowed then .error .malformed
  else
    let (ts, ending) := tokens t
    ((readDocument (3 * ts.length + 3)).run { tokens := ts, ending := ending }).map (·.1)

end Yaml

end PushButton
