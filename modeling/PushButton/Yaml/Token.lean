import PushButton.Yaml.Scalar

/-!
# Tokens of a document

A document is cut into tokens. A token that may turn out to be the key of a mapping is remembered
until a colon follows on its line, within 1024 symbols; only then the marks of the key, and of a
mapping that begins with it, are put in front of it. Blocks are closed by the column of the next
token.
-/

namespace PushButton

namespace Yaml

/-- A line that begins with a percent sign. -/
inductive Directive where
  /-- The version of the format. -/
  | version (major : Nat)
  /-- An abbreviation of tags: a handle and what it stands for. -/
  | tag (handle start : Text)
  /-- Anything else. -/
  | other
deriving DecidableEq, Repr

/-- A token of a document. -/
inductive Token where
  /-- The end of the text. -/
  | finish
  /-- A directive. -/
  | directive (d : Directive)
  /-- The mark of the beginning of a document. -/
  | documentStart
  /-- The mark of the end of a document. -/
  | documentEnd
  /-- A block of entries begins. -/
  | blockSequence
  /-- A block of keys and values begins. -/
  | blockMapping
  /-- A block ends. -/
  | blockEnd
  /-- A square bracket opens. -/
  | flowSequence
  /-- A square bracket closes. -/
  | flowSequenceEnd
  /-- A brace opens. -/
  | flowMapping
  /-- A brace closes. -/
  | flowMappingEnd
  /-- A dash in front of an entry. -/
  | entry
  /-- A comma. -/
  | comma
  /-- A key follows. -/
  | key
  /-- A value follows. -/
  | value
  /-- The name of an earlier node. -/
  | alias (name : Text)
  /-- A name for the node that follows. -/
  | anchor (name : Text)
  /-- The tag of the node that follows: a handle, where there is one, and the rest. -/
  | tag (handle : Option Text) (suffix : Text)
  /-- A scalar, plain or not. -/
  | scalar (plain : Bool) (text : Text)
deriving DecidableEq, Repr

namespace Token

/-! ## Directives, names and tags -/

/-- A name of letters, digits, dashes and underscores. -/
def name (c : Cursor) : Except Flaw (Text × Cursor) :=
  let (t, c) := c.takeWhile Symbol.isWordPart
  if t.isEmpty then .error .malformed else .ok (t, c)

/-- The name of an anchor or alias behind its mark. -/
def anchorName (c : Cursor) : Except Flaw (Text × Cursor) := do
  let (t, c) ← name c
  if c.blankAt 0 || c.sees (Symbol.isOneOf "?:,]\x7d%@`") then .ok (t, c) else .error .malformed

/-- A number of a version. -/
def versionNumber (c : Cursor) : Except Flaw (Nat × Cursor) :=
  let (t, c) := c.takeWhile Symbol.isDigit
  if t.isEmpty then .error .malformed
  else .ok (Text.ofDigits 10 (t.filterMap Symbol.digit?), c)

/-- The handle of a tag: exclamation marks at both ends of a name, or a single one. -/
def tagHandle (c : Cursor) : Except Flaw (Text × Cursor) :=
  if !c.seesChar '!' then .error .malformed
  else if c.step.seesChar ' ' then .ok ([.char '!'], c.step)
  else
    let (t, c) := c.step.takeWhile Symbol.isWordPart
    if c.seesChar '!' then .ok (.char '!' :: t ++ [.char '!'], c.step) else .error .malformed

/-- A symbol that may stand in a tag. -/
def isTagPart (s : Symbol) : Bool :=
  s.isDigit || s.isLetter || s.isOneOf "-;/?:@&=+$,_.!~*'()[]%"

/-- The bytes that are written as percent signs and two digits. -/
def tagBytes : Nat → Cursor → Except Flaw (Bytes × Cursor)
  | 0, c => .ok ([], c)
  | fuel + 1, c =>
    if !c.seesChar '%' then .ok ([], c)
    else
      match hexNumber? 2 c.step.rest with
      | none => .error .malformed
      | some n => (tagBytes fuel (c.skip 3)).map fun (bs, c) => (.ofNat n :: bs, c)

/-- The text of a tag, in which symbols may be written by their bytes. -/
def tagParts : Nat → Cursor → Except Flaw (Text × Cursor)
  | 0, c => .ok ([], c)
  | fuel + 1, c =>
    if c.seesChar '%' then
      match tagBytes (c.rest.length + 1) c with
      | .error e => .error e
      | .ok (bytes, c) =>
        match Utf8.decode bytes with
        | .error _ => .error .malformed
        | .ok t => (tagParts fuel c).map fun (more, c) => (t ++ more, c)
    else if c.sees isTagPart then
      (tagParts fuel c.step).map fun (more, last) => (c.rest.take 1 ++ more, last)
    else .ok ([], c)

/-- The text of a tag, which is not empty. -/
def tagText (c : Cursor) : Except Flaw (Text × Cursor) :=
  if c.sees isTagPart then tagParts (c.rest.length + 1) c else .error .malformed

/-- A directive behind its percent sign, up to the end of its line. -/
def readDirective (c : Cursor) : Except Flaw (Directive × Cursor) := do
  let (n, c) ← name c
  if !c.seesSpaceOrBreak then .error .malformed
  let (d, c) ←
    if n = "YAML" then do
      let (major, c) ← versionNumber c.skipSpaces
      if !c.seesChar '.' then .error .malformed
      let (_, c) ← versionNumber c.step
      if c.seesSpaceOrBreak then pure (Directive.version major, c) else .error .malformed
    else if n = "TAG" then do
      let (handle, c) ← tagHandle c.skipSpaces
      if !c.seesChar ' ' then .error .malformed
      let (start, c) ← tagText c.skipSpaces
      if c.seesSpaceOrBreak then pure (Directive.tag handle start, c) else .error .malformed
    else pure (Directive.other, c.skipWhile fun s => !s.isBreak)
  let c ← restOfLine c
  pure (d, c)

/-- A tag from its exclamation mark on: in angle brackets, alone, or with a handle. -/
def readTag (c : Cursor) : Except Flaw (Token × Cursor) := do
  let (t, c) ←
    if c.step.seesChar '<' then do
      let (suffix, c) ← tagText (c.skip 2)
      if c.seesChar '>' then pure (Token.tag none suffix, c.step) else .error .malformed
    else if c.blankAt 1 then pure (Token.tag none "!", c.step)
    else
      let word := (c.rest.drop 1).takeWhile fun s => !(s = .char ' ' || s.isBreak)
      if word.contains (.char '!') then do
        let (handle, c) ← tagHandle c
        let (suffix, c) ← tagText c
        pure (Token.tag (some handle) suffix, c)
      else do
        let (suffix, c) ← tagText c.step
        pure (Token.tag (some "!") suffix, c)
  if c.seesSpaceOrBreak then .ok (t, c) else .error .malformed

end Token

/-! ## The scanner -/

/-- A token that may turn out to be the key of a mapping. -/
structure PossibleKey where
  /-- The number of tokens in front of it. -/
  number : Nat
  /-- No other token than a key may stand here. -/
  required : Bool
  /-- The place of its first symbol. -/
  place : Cursor

/-- The possible key has been left behind: it is on another line, or too far away. -/
def PossibleKey.isStale (k : PossibleKey) (c : Cursor) : Bool :=
  k.place.line ≠ c.line || c.index - k.place.index > 1024

/-- What is known in the middle of a document. -/
structure Scanner where
  /-- The place. -/
  cursor : Cursor
  /-- The tokens so far, the last one first. -/
  tokens : List Token := []
  /-- One more than the column of the innermost block; zero outside of all blocks. -/
  depth : Nat := 0
  /-- The same of the blocks around it, from the inside out. -/
  outerDepths : List Nat := []
  /-- A key without a mark may begin here. -/
  keyAllowed : Bool := true
  /-- The possible key on the innermost level of brackets. -/
  possible : Option PossibleKey := none
  /-- The possible keys on the levels of brackets around it, from the inside out. -/
  outerPossible : List (Option PossibleKey) := []

namespace Scanner

/-- The place is inside of brackets. -/
def inFlow (s : Scanner) : Bool := !s.outerPossible.isEmpty

/-- The scanner with one more token. -/
def emit (s : Scanner) (t : Token) : Scanner := { s with tokens := t :: s.tokens }

/-- The scanner with a token put behind a number of the tokens so far. -/
def insert (s : Scanner) (number : Nat) (t : Token) : Scanner :=
  let later := s.tokens.length - number
  { s with tokens := s.tokens.take later ++ t :: s.tokens.drop later }

/-- Closes the blocks that are deeper than a depth. -/
def unwind (depth : Nat) (s : Scanner) : List Nat → Scanner
  | [] => s
  | outer :: rest =>
    if s.depth > depth then
      let s := { s with depth := outer, outerDepths := rest, tokens := .blockEnd :: s.tokens }
      unwind depth s rest
    else s

/-- Closes all blocks to the right of a column, outside of brackets. -/
def closeBlocks (s : Scanner) (depth : Nat) : Scanner :=
  if s.inFlow then s else s.unwind depth s.outerDepths

/-- The place is where a block can begin: to the right of the innermost one. -/
def opensBlock (s : Scanner) (column : Nat) : Bool := s.depth ≤ column

/-- A block opened at a column. -/
def openBlock (s : Scanner) (column : Nat) : Scanner :=
  { s with depth := column + 1, outerDepths := s.depth :: s.outerDepths }

/-- A possible key dropped when it is stale, which a required one must not be. -/
def dropStaleKey (c : Cursor) : Option PossibleKey → Except Flaw (Option PossibleKey)
  | none => .ok none
  | some k =>
    if k.isStale c then if k.required then .error .malformed else .ok none
    else .ok (some k)

/-- Drops the possible keys that are stale. -/
def dropStale (s : Scanner) : Except Flaw Scanner := do
  let possible ← dropStaleKey s.cursor s.possible
  let outer ← s.outerPossible.mapM (dropStaleKey s.cursor)
  pure { s with possible := possible, outerPossible := outer }

/-- Gives up the possible key, which a required one must not be. -/
def giveUpKey (s : Scanner) : Except Flaw Scanner :=
  if s.possible.any (·.required) then .error .malformed else .ok { s with possible := none }

/-- Remembers that the next token may be a key. -/
def rememberKey (s : Scanner) : Except Flaw Scanner := do
  if !s.keyAllowed then return s
  let s ← s.giveUpKey
  let required := !s.inFlow && s.depth = s.cursor.column + 1
  pure { s with possible := some ⟨s.tokens.length, required, s.cursor⟩ }

/-- Skips spaces, comments and line endings in front of a token; outside of brackets a key may
begin on a new line. -/
def skipToToken : Nat → Scanner → Scanner
  | 0, s => s
  | fuel + 1, s =>
    let c := s.cursor.skipSpaces.skipComment
    match c.lineBreak? with
    | none => { s with cursor := c }
    | some (_, c) =>
      skipToToken fuel { s with cursor := c, keyAllowed := s.keyAllowed || !s.inFlow }

/-- A mark of one symbol, with the token for it. -/
def mark (s : Scanner) (t : Token) : Scanner := { s.emit t with cursor := s.cursor.step }

/-- The directive or the mark of a document at the place. -/
def documentPart (s : Scanner) (t : Token) (c : Cursor) : Except Flaw Scanner := do
  let s ← (s.closeBlocks 0).giveUpKey
  pure { s.emit t with cursor := c, keyAllowed := false }

/-- An opening bracket or brace. -/
def openFlow (s : Scanner) (t : Token) : Except Flaw Scanner := do
  let s ← s.rememberKey
  pure { s.mark t with
    keyAllowed := true, possible := none, outerPossible := s.possible :: s.outerPossible }

/-- A closing bracket or brace. -/
def closeFlow (s : Scanner) (t : Token) : Except Flaw Scanner := do
  let s ← s.giveUpKey
  match s.outerPossible with
  | [] => .error .malformed
  | possible :: outer =>
    pure { s.mark t with keyAllowed := false, possible := possible, outerPossible := outer }

/-- A comma. -/
def comma (s : Scanner) : Except Flaw Scanner := do
  let s ← s.giveUpKey
  pure { s.mark .comma with keyAllowed := true }

/-- Opens a block at the place when it can begin there, outside of brackets. -/
def beginBlock (s : Scanner) (t : Token) : Except Flaw Scanner :=
  if s.inFlow then .ok s
  else if !s.keyAllowed then .error .malformed
  else if s.opensBlock s.cursor.column then .ok ((s.openBlock s.cursor.column).emit t)
  else .ok s

/-- A dash in front of an entry. -/
def entry (s : Scanner) : Except Flaw Scanner := do
  let s ← (← s.beginBlock .blockSequence).giveUpKey
  pure { s.mark .entry with keyAllowed := true }

/-- A question mark in front of a key. -/
def key (s : Scanner) : Except Flaw Scanner := do
  let s ← (← s.beginBlock .blockMapping).giveUpKey
  pure { s.mark .key with keyAllowed := !s.inFlow }

/-- A colon: the possible key becomes a key. -/
def value (s : Scanner) : Except Flaw Scanner := do
  match s.possible with
  | some k =>
    let s := ({ s with possible := none, keyAllowed := false } : Scanner).insert k.number .key
    let column := k.place.column
    let s :=
      if !s.inFlow && s.opensBlock column then
        (s.openBlock column).insert k.number .blockMapping
      else s
    pure (s.mark .value)
  | none =>
    let s ← (← s.beginBlock .blockMapping).giveUpKey
    pure { s.mark .value with keyAllowed := !s.inFlow }

/-- A token that may be a key, read from the place. -/
def node (s : Scanner) (read : Cursor → Except Flaw (Token × Cursor)) : Except Flaw Scanner := do
  let s ← s.rememberKey
  let (t, c) ← read s.cursor
  pure { s.emit t with cursor := c, keyAllowed := false }

/-- A plain scalar; a key may begin behind one that is followed by a line ending. -/
def plain (s : Scanner) : Except Flaw Scanner := do
  let s ← s.rememberKey
  let (t, c, crossed) := plainScalar s.inFlow s.depth s.cursor
  pure { s.emit (.scalar true t) with cursor := c, keyAllowed := crossed }

/-- A block. -/
def block (s : Scanner) (isFolded : Bool) : Except Flaw Scanner := do
  let s ← s.giveUpKey
  let (t, c) ← blockScalar isFolded s.depth s.cursor
  pure { s.emit (.scalar false t) with cursor := c, keyAllowed := true }

/-- A plain scalar can begin at the place. -/
def seesPlain (s : Scanner) : Bool :=
  match s.cursor.next with
  | none => false
  | some x =>
    !(x = .char ' ' || x = .char '\t' || x.isBreak || x.isOneOf "-?:,[]\x7b\x7d#&*!|>'\"%@`") ||
      (!s.cursor.blankAt 1 && (x = .char '-' || (!s.inFlow && x.isOneOf "?:")))

/-- Names in front of a node: an anchor or an alias. -/
def named (make : Text → Token) (c : Cursor) : Except Flaw (Token × Cursor) :=
  (Token.anchorName c.step).map fun (t, c) => (make t, c)

/-- The next token, where another symbol than the end of the text is left. -/
def fetch (s : Scanner) (x : Symbol) : Except Flaw Scanner :=
  let c := s.cursor
  let standsAlone := s.inFlow || c.blankAt 1
  let atMargin := c.column = 0
  if x = .char '%' && atMargin then do
    let (d, c) ← Token.readDirective c.step
    s.documentPart (.directive d) c
  else if atMargin && c.seesMark "---" then s.documentPart .documentStart (c.skip 3)
  else if atMargin && c.seesMark "..." then s.documentPart .documentEnd (c.skip 3)
  else if x = .char '[' then s.openFlow .flowSequence
  else if x = .char '\x7b' then s.openFlow .flowMapping
  else if x = .char ']' then s.closeFlow .flowSequenceEnd
  else if x = .char '\x7d' then s.closeFlow .flowMappingEnd
  else if x = .char ',' then s.comma
  else if x = .char '-' && c.blankAt 1 then s.entry
  else if x = .char '?' && standsAlone then s.key
  else if x = .char ':' && standsAlone then s.value
  else if x = .char '*' then s.node (named .alias)
  else if x = .char '&' then s.node (named .anchor)
  else if x = .char '!' then s.node Token.readTag
  else if x = .char '|' && !s.inFlow then s.block false
  else if x = .char '>' && !s.inFlow then s.block true
  else if x = .char '\'' then
    s.node fun c => (quotedScalar false c).map fun (t, c) => (.scalar false t, c)
  else if x = .char '"' then
    s.node fun c => (quotedScalar true c).map fun (t, c) => (.scalar false t, c)
  else if s.seesPlain then s.plain
  else .error .malformed

/-- The tokens that can no longer change when the scanner stops at a flaw: those in front of the
first possible key. -/
def settled (s : Scanner) : List Token :=
  let keys := (s.possible :: s.outerPossible).filterMap id
  let count := keys.foldl (fun n k => min n k.number) s.tokens.length
  s.tokens.reverse.take count

/-- The tokens from a place on, and the flaw that ends them, where there is one. -/
def run : Nat → Scanner → List Token × Option Flaw
  | 0, s => (s.settled, some .malformed)
  | fuel + 1, s =>
    let s := skipToToken (s.cursor.rest.length + 1) s
    let next : Except Flaw (Scanner × Bool) := do
      let s ← s.dropStale
      let s := s.closeBlocks (s.cursor.column + 1)
      match s.cursor.next with
      | none => do
        let s ← (s.closeBlocks 0).giveUpKey
        pure (s.emit .finish, true)
      | some x => do pure (← s.fetch x, false)
    match next with
    | .error e => (s.settled, some e)
    | .ok (s, true) => (s.tokens.reverse, none)
    | .ok (s, false) => run fuel s

end Scanner

/-- The tokens of a text, and the flaw that ends them, where there is one. -/
def tokens (t : Text) : List Token × Option Flaw :=
  let c : Cursor := { rest := t }
  let c := if c.seesChar '\ufeff' then c.step else c
  Scanner.run (t.length + 2) { cursor := c }

end Yaml

end PushButton
