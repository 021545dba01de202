import PushButton.Yaml.Cursor
import PushButton.Yaml.Flaw

/-!
# Scalars of a document

A scalar is plain, quoted, or a block of lines. In every form a single line ending inside it becomes
a space, and of several in a row all but the first are kept; a block keeps its line endings unless
it is folded. Each function below reads a scalar from a cursor and gives the cursor behind it.
-/

namespace PushButton

namespace Yaml

/-- What a line ending and the line endings after it become: the line endings after a line feed, or
a space when there are none; a separator is kept. -/
def folded (lineEnd : Symbol) (breaks : Text) : Text :=
  if lineEnd ≠ .char '\n' then lineEnd :: breaks
  else if breaks.isEmpty then [.char ' ']
  else breaks

/-! ## Plain scalars -/

/-- The number of symbols up to white space, to a colon that ends a key, or to a bracket or comma of
a flow collection. -/
def plainRun (inFlow : Bool) : Text → Nat
  | [] => 0
  | s :: rest =>
    let endsKey := (rest.head?).all fun r =>
      r = .char ' ' || r = .char '\t' || r.isBreak || (inFlow && r.isOneOf ",[]\x7b\x7d")
    if s = .char ' ' || s = .char '\t' || s.isBreak then 0
    else if s = .char ':' && endsKey then 0
    else if inFlow && s.isOneOf ",?[]\x7b\x7d" then 0
    else plainRun inFlow rest + 1

/-- What stands between two words of a plain scalar. -/
structure Gap where
  /-- The text that it becomes; empty when the scalar ends here. -/
  text : Text
  /-- The place behind it. -/
  cursor : Cursor
  /-- It holds a line ending. -/
  crossed : Bool

/-- Line endings and spaces between words; nothing when the mark of a document follows. -/
def plainBreaks : Nat → Cursor → Option (Text × Cursor)
  | 0, c => some ([], c)
  | fuel + 1, c =>
    if c.seesChar ' ' then plainBreaks fuel c.step
    else
      match c.lineBreak? with
      | none => some ([], c)
      | some (s, c) =>
        if c.seesDocumentMark then none
        else (plainBreaks fuel c).map fun (t, c) => (s :: t, c)

/-- The gap behind a word of a plain scalar. -/
def plainGap (c : Cursor) : Gap :=
  let (spaces, c) := c.takeWhile (· = .char ' ')
  match c.lineBreak? with
  | none => ⟨spaces, c, false⟩
  | some (s, c) =>
    if c.seesDocumentMark then ⟨[], c, true⟩
    else
      match plainBreaks (c.rest.length + 1) c with
      | none => ⟨[], c, true⟩
      | some (breaks, c) => ⟨folded s breaks, c, true⟩

/-- The words of a plain scalar from a place on, the place behind it, and whether the scalar is
followed by a line ending; `depth` is the least column on which it may go on. -/
def plainFrom (inFlow : Bool) (depth : Nat) : Nat → Cursor → Bool → Text × Cursor × Bool
  | 0, c, crossed => ([], c, crossed)
  | fuel + 1, c, crossed =>
    let n := plainRun inFlow c.rest
    if n = 0 then ([], c, crossed)
    else
      let gap := plainGap (c.skip n)
      let ends := gap.text.isEmpty || gap.cursor.seesChar '#' ||
        (!inFlow && gap.cursor.column < depth)
      if ends then (c.rest.take n, gap.cursor, gap.crossed)
      else
        let (more, last, crossed) := plainFrom inFlow depth fuel gap.cursor gap.crossed
        (c.rest.take n ++ (if more.isEmpty then [] else gap.text ++ more), last, crossed)

/-- A plain scalar. -/
def plainScalar (inFlow : Bool) (depth : Nat) (c : Cursor) : Text × Cursor × Bool :=
  plainFrom inFlow depth (c.rest.length + 1) c false

/-! ## Quoted scalars -/

/-- What a letter after a backslash stands for. -/
def escape? : Symbol → Option Char
  | .char '0' => some '\x00'
  | .char 'a' => some '\x07'
  | .char 'b' => some '\x08'
  | .char 't' => some '\t'
  | .char '\t' => some '\t'
  | .char 'n' => some '\n'
  | .char 'v' => some '\x0b'
  | .char 'f' => some '\x0c'
  | .char 'r' => some '\r'
  | .char 'e' => some '\x1b'
  | .char ' ' => some ' '
  | .char '"' => some '"'
  | .char '\\' => some '\\'
  | .char '/' => some '/'
  | .char 'N' => some '\x85'
  | .char '_' => some '\xa0'
  | .char 'L' => some '\u2028'
  | .char 'P' => some '\u2029'
  | _ => none

/-- The number of hexadecimal digits after a letter that stands behind a backslash. -/
def escapeDigits? : Symbol → Option Nat
  | .char 'x' => some 2
  | .char 'u' => some 4
  | .char 'U' => some 8
  | _ => none

/-- The number that a row of hexadecimal digits stands for. -/
def hexNumber? (n : Nat) (t : Text) : Option Nat :=
  if t.length < n then none
  else ((t.take n).mapM Symbol.hexDigit?).map (Text.ofDigits 16)

/-- The line endings in a quoted scalar, with the white space around them dropped. -/
def quotedBreaks : Nat → Cursor → Except Flaw (Text × Cursor)
  | 0, c => .ok ([], c)
  | fuel + 1, c =>
    if c.seesDocumentMark then .error .malformed
    else
      let c := c.skipWhile fun s => s = .char ' ' || s = .char '\t'
      match c.lineBreak? with
      | none => .ok ([], c)
      | some (s, c) => (quotedBreaks fuel c).map fun (t, c) => (s :: t, c)

/-- The rest of a quoted scalar, the closing quote included; between double quotes a backslash
begins an escape, and between single quotes a quote is written twice. -/
def quotedFrom (double : Bool) : Nat → Cursor → Except Flaw (Text × Cursor)
  | 0, _ => .error .malformed
  | fuel + 1, c =>
    let quote : Symbol := if double then .char '"' else .char '\''
    let onward (t : Text) (c : Cursor) : Except Flaw (Text × Cursor) :=
      (quotedFrom double fuel c).map fun (more, c) => (t ++ more, c)
    match c.next with
    | none => .error .malformed
    | some s =>
      if s = quote then
        if !double && c.ahead 1 = some quote then onward [quote] (c.skip 2) else .ok ([], c.step)
      else if double && s = .char '\\' then
        let c := c.step
        match c.next with
        | none => .error .malformed
        | some e =>
          match escape? e, escapeDigits? e with
          | some ch, _ => onward [.char ch] c.step
          | none, some n =>
            match hexNumber? n c.step.rest with
            | none => .error .malformed
            | some code =>
              if code < 0x110000 then onward [.ofCode code] (c.step.skip n)
              else .error (.conversion (.codePoint code))
          | none, none =>
            match c.lineBreak? with
            | none => .error .malformed
            | some (_, c) => do
              let (breaks, c) ← quotedBreaks (c.rest.length + 1) c
              onward breaks c
      else if s = .char ' ' || s = .char '\t' || s.isBreak then
        let (spaces, c) := c.takeWhile fun s => s = .char ' ' || s = .char '\t'
        match c.lineBreak? with
        | none => onward spaces c
        | some (lineEnd, c) => do
          let (breaks, c) ← quotedBreaks (c.rest.length + 1) c
          onward (folded lineEnd breaks) c
      else onward [s] c.step

/-- A quoted scalar from its first quote on. -/
def quotedScalar (double : Bool) (c : Cursor) : Except Flaw (Text × Cursor) :=
  quotedFrom double (c.rest.length + 1) c.step

/-! ## Blocks -/

/-- Which line endings at the end of a block are kept. -/
inductive Chomping where
  /-- The last one. -/
  | clip
  /-- None. -/
  | strip
  /-- All. -/
  | keep
deriving DecidableEq, Repr

/-- What is written about a block after its mark. -/
structure BlockHeader where
  /-- Which line endings at the end are kept. -/
  chomping : Chomping
  /-- The indentation of the block, where it is given. -/
  increment : Option Nat
deriving DecidableEq, Repr

/-- A sign of a header. -/
def chomping? (c : Cursor) : Option Chomping :=
  if c.seesChar '+' then some .keep else if c.seesChar '-' then some .strip else none

/-- The indentation in a header; zero is no indentation. -/
def increment? (c : Cursor) : Except Flaw (Option Nat) :=
  match c.next.bind Symbol.digit? with
  | none => .ok none
  | some 0 => .error .malformed
  | some n => .ok (some n)

/-- The header of a block. -/
def blockHeader (c : Cursor) : Except Flaw (BlockHeader × Cursor) := do
  let (header, c) ← match chomping? c with
    | some chomping => do
      let increment ← increment? c.step
      pure (BlockHeader.mk chomping increment, if increment.isSome then c.step.step else c.step)
    | none => do
      match ← increment? c with
      | none => pure (BlockHeader.mk .clip none, c)
      | some n =>
        match chomping? c.step with
        | some chomping => pure (BlockHeader.mk chomping (some n), c.step.step)
        | none => pure (BlockHeader.mk .clip (some n), c.step)
  if c.seesSpaceOrBreak then .ok (header, c) else .error .malformed

/-- The rest of a line on which only a comment may stand, and its line ending. -/
def restOfLine (c : Cursor) : Except Flaw Cursor :=
  let c := c.skipSpaces.skipComment
  if c.seesLineEnd then .ok ((c.lineBreak?.map (·.2)).getD c) else .error .malformed

/-- The empty lines in front of a block, and the column of its deepest space. -/
def leadingBreaks : Nat → Nat → Cursor → Text × Nat × Cursor
  | 0, deepest, c => ([], deepest, c)
  | fuel + 1, deepest, c =>
    if c.seesChar ' ' then leadingBreaks fuel (max deepest c.step.column) c.step
    else
      match c.lineBreak? with
      | none => ([], deepest, c)
      | some (s, c) =>
        let (t, deepest, c) := leadingBreaks fuel deepest c
        (s :: t, deepest, c)

/-- The empty lines between two lines of a block that is indented to a column. -/
def blockBreaks (column : Nat) : Nat → Cursor → Text × Cursor
  | 0, c => ([], c.skipSpacesTo column)
  | fuel + 1, c =>
    let c := c.skipSpacesTo column
    match c.lineBreak? with
    | none => ([], c)
    | some (s, c) =>
      let (t, c) := blockBreaks column fuel c
      (s :: t, c)

/-- The lines of a block from a place on, with the empty lines in front of it, and how the block
ends: its last line ending and the empty lines after it. -/
def blockLines (isFolded : Bool) (column : Nat) : Nat → Cursor → Text × Text × Text × Cursor
  | 0, c => ([], [], [], c)
  | fuel + 1, c =>
    let indented := !c.sees fun s => s = .char ' ' || s = .char '\t'
    let (line, c) := c.takeWhile fun s => !s.isBreak
    let (lineEnd, c) := match c.lineBreak? with
      | none => (([] : Text), c)
      | some (s, c) => ([s], c)
    let (breaks, c) := blockBreaks column (c.rest.length + 1) c
    if c.column = column && !c.atEnd then
      let joins := isFolded && lineEnd = [.char '\n'] && indented &&
        !c.sees fun s => s = .char ' ' || s = .char '\t'
      let between : Text := if !joins then lineEnd else if breaks.isEmpty then [.char ' '] else []
      let (more, last, trailing, c) := blockLines isFolded column fuel c
      (line ++ between ++ breaks ++ more, last, trailing, c)
    else (line, lineEnd, breaks, c)

/-- The empty lines in front of a block, the column to which it is indented, and the place of its
first line; `least` is the least such column. -/
def blockStart (header : BlockHeader) (least : Nat) (c : Cursor) : Text × Nat × Cursor :=
  match header.increment with
  | none =>
    let (breaks, deepest, c) := leadingBreaks (c.rest.length + 1) 0 c
    (breaks, max least deepest, c)
  | some n =>
    let column := least + n - 1
    let (breaks, c) := blockBreaks column (c.rest.length + 1) c
    (breaks, column, c)

/-- The lines of a block behind the empty lines in front of it, and how the block ends; a block
without lines ends with these empty lines. -/
def blockBody (isFolded : Bool) (breaks : Text) (column : Nat) (c : Cursor) :
    Text × Text × Text × Cursor :=
  if c.column = column && !c.atEnd then
    let (lines, lineEnd, trailing, c) := blockLines isFolded column (c.rest.length + 1) c
    (breaks ++ lines, lineEnd, trailing, c)
  else ([], [], breaks, c)

/-- A block from its mark on; `depth` is the least column of the collection around it. -/
def blockScalar (isFolded : Bool) (depth : Nat) (c : Cursor) : Except Flaw (Text × Cursor) := do
  let (header, c) ← blockHeader c.step
  let c ← restOfLine c
  let (breaks, column, c) := blockStart header (max depth 1) c
  let (lines, lineEnd, trailing, c) := blockBody isFolded breaks column c
  match header.chomping with
  | .strip => .ok (lines, c)
  | .clip => .ok (lines ++ lineEnd, c)
  | .keep => .ok (lines ++ lineEnd ++ trailing, c)

end Yaml

end PushButton
