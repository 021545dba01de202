import PushButton.Json.Value
import PushButton.Text.Blank

/-!
# Files of variables

Variables can be given in a file, one on each line: a name, an equals sign and a value. A value may
be quoted, and may then hold line endings and escapes; otherwise it ends at the line or at a comment
behind white space. A value may refer to variables in front of it and to those of the environment,
with a default. A line that has another form is passed over.
-/

namespace PushButton

/-- Variables with their values, in the order in which they were given. -/
abbrev Environment := List (Text × Text)

namespace EnvFile

/-- White space within a line. -/
def isInlineBlank (s : Symbol) : Bool := s.isBlank && s ≠ .char '\n' && s ≠ .char '\r'

/-- A symbol within a line. -/
def isInline (s : Symbol) : Bool := s ≠ .char '\n' && s ≠ .char '\r'

/-- What is behind white space within a line. -/
def skipInline (t : Text) : Text := t.dropWhile isInlineBlank

/-- The length of a quoted text in front of its closing quote; a quote behind a backslash closes
only when there is no other. -/
def quotedLength? (quote : Symbol) : Text → Option Nat
  | [] => none
  | .char '\\' :: s :: rest =>
    if s = quote then
      match quotedLength? quote rest with
      | some n => some (n + 2)
      | none => some 1
    else (quotedLength? quote (s :: rest)).map (· + 1)
  | s :: rest => if s = quote then some 0 else (quotedLength? quote rest).map (· + 1)

/-- What a letter behind a backslash stands for. -/
def escape? : Symbol → Option Char
  | .char '\\' => some '\\'
  | .char '\'' => some '\''
  | .char '"' => some '"'
  | .char 'a' => some '\x07'
  | .char 'b' => some '\x08'
  | .char 'f' => some '\x0c'
  | .char 'n' => some '\n'
  | .char 'r' => some '\r'
  | .char 't' => some '\t'
  | .char 'v' => some '\x0b'
  | _ => none

/-- A text with its escapes replaced; between single quotes only backslash and quote are escaped. -/
def unescape (quote : Symbol) : Text → Text
  | [] => []
  | .char '\\' :: s :: rest =>
    let escaped := (escape? s).filter fun _ =>
      quote = .char '"' || s = .char '\\' || s = .char '\''
    match escaped with
    | some c => .char c :: unescape quote rest
    | none => .char '\\' :: unescape quote (s :: rest)
  | s :: rest => s :: unescape quote rest

/-- A value without a comment behind white space. -/
def dropComment : Text → Text
  | [] => []
  | s :: rest =>
    if s.isBlank && (rest.dropWhile Symbol.isBlank).head? = some (.char '#') then []
    else s :: dropComment rest

/-- The value behind an equals sign and what follows it. -/
def value? (t : Text) : Option (Text × Text) :=
  match t with
  | [] => some ([], [])
  | s :: rest =>
    if s = .char '\'' || s = .char '"' then
      (quotedLength? s rest).map fun n => (unescape s (rest.take n), rest.drop (n + 1))
    else some (Text.stripEnd (dropComment (t.takeWhile isInline)), t.dropWhile isInline)

/-- What is behind the word that may stand in front of a name. -/
def skipExport (t : Text) : Text :=
  match t.after? "export" with
  | none => t
  | some rest => if rest.head?.any isInlineBlank then skipInline rest else t

/-- A name and what follows it: in single quotes, or up to an equals sign, a comment or white
space. -/
def name? (t : Text) : Option (Text × Text) :=
  match t with
  | .char '\'' :: rest =>
    let name := rest.takeWhile (· ≠ .char '\'')
    if name.isEmpty || name.length = rest.length then none
    else some (name, rest.drop (name.length + 1))
  | _ =>
    let isPart (s : Symbol) : Bool := !(s = .char '=' || s = .char '#' || s.isBlank)
    let name := t.takeWhile isPart
    if name.isEmpty then none else some (name, t.dropWhile isPart)

/-- What is behind the rest of a line, which is empty but for a comment. -/
def lineEnd? (t : Text) : Option Text :=
  let rest := skipInline t
  let rest := if rest.head? = some (.char '#') then rest.dropWhile isInline else rest
  match rest with
  | [] => some []
  | .char '\r' :: .char '\n' :: rest => some rest
  | s :: rest => if isInline s then none else some rest

/-- What is behind the end of the line. -/
def skipLine (t : Text) : Text :=
  match t.dropWhile isInline with
  | [] => []
  | _ :: rest => rest

/-- A name with its value, where it is given one; a name without a value takes back an earlier
value. -/
abbrev Binding := Text × Option Text

/-- One line that is not blank: what it gives, and what follows it. -/
def line (t : Text) : Option Binding × Text :=
  let t := skipExport t
  let finish (found : Option Binding) (rest : Text) : Option Binding × Text :=
    match lineEnd? rest with
    | some rest => (found, rest)
    | none => (none, skipLine rest)
  if t.head? = some (.char '#') then finish none t
  else
    match name? t with
    | none => (none, skipLine t)
    | some (name, rest) =>
      match skipInline rest with
      | .char '=' :: rest =>
        let rest := skipInline rest
        match value? rest with
        | none => (none, skipLine rest)
        | some (value, rest) => finish (some (name, some value)) rest
      | rest => finish (some (name, none)) rest

/-- The bindings of a text, references not yet replaced. -/
def bindings : Nat → Text → List Binding
  | 0, _ => []
  | fuel + 1, t =>
    let t := t.dropWhile Symbol.isBlank
    if t.isEmpty then []
    else
      let (found, rest) := line t
      found.toList ++ bindings fuel rest

/-- A reference behind its opening brace: a name, a default where there is one, and what
follows. -/
def reference? (t : Text) : Option (Text × Text × Text) :=
  let stops (s : Symbol) : Bool := s = .char '\x7d' || s = .char ':'
  let name := t.takeWhile (!stops ·)
  match t.dropWhile (!stops ·) with
  | .char '\x7d' :: rest => some (name, [], rest)
  | .char ':' :: .char '-' :: rest =>
    match Text.cut? (.char '\x7d') rest with
    | some (default, rest) => some (name, default, rest)
    | none => none
  | _ => none

/-- A value with its references replaced; a known name without a value stands for nothing. -/
def expand (known : List Binding) : Nat → Text → Text
  | 0, t => t
  | _, [] => []
  | fuel + 1, s :: rest =>
    match (Text.after? (s :: rest) "$\x7b").bind reference? with
    | some (name, default, rest) =>
      ((Json.lookup name known).getD (some default)).getD [] ++ expand known fuel rest
    | none => s :: expand known fuel rest

/-- The bindings of a text, each name once; those in front of a variable hide those of the
environment in it. -/
def parse (env : Environment) (t : Text) : List Binding :=
  let outside : List Binding := env.map fun (name, value) => (name, some value)
  (bindings (t.length + 1) t).foldl
    (fun found (name, value) =>
      let expanded := value.map fun v => expand (found ++ outside) (v.length + 1) v
      Json.put name expanded found)
    []

end EnvFile

end PushButton
