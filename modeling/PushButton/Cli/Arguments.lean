import PushButton.Files.Tree
import PushButton.Text.Likeness
import PushButton.Text.Numeral
import PushButton.Text.Quoted

/-!
# Arguments of commands

The arguments of a command are options, each by one of its names and perhaps with a value, and
values without a name. The value of a long name may follow an equals sign, that of a short name may
follow at once, and every value may be the next argument. Behind two dashes there are no options.
Every value is checked; of several faults the first one is reported.
-/

namespace PushButton

namespace Cli

/-- What the values of an option or of an argument have to be. -/
inductive ValueKind where
  /-- Any text. -/
  | text
  /-- An integer. -/
  | integer
  /-- An integer that is at least as large as another one. -/
  | atLeast (least : Int)
  /-- One of some words. -/
  | word (words : List Text)
  /-- One of some words, in capitals or in small letters. -/
  | anyCase (words : List Text)
  /-- The path of a file, which perhaps has to be there. -/
  | file (present : Bool)
deriving DecidableEq, Repr

/-- An option of a command. -/
structure OptionSpec where
  /-- Its names, each with its dashes. -/
  names : List Text
  /-- What its value has to be; nothing when it has no value. -/
  value : Option ValueKind
deriving DecidableEq, Repr

/-- An argument of a command without a name. -/
structure ArgumentSpec where
  /-- What it is called. -/
  title : Text
  /-- What it has to be. -/
  value : ValueKind
  /-- It may be given several times. -/
  many : Bool := false
deriving DecidableEq, Repr

/-- A command with its options and arguments. -/
structure CommandSpec where
  /-- Its name. -/
  name : Text
  /-- Its options. -/
  options : List OptionSpec := []
  /-- Its arguments. -/
  arguments : List ArgumentSpec := []
deriving DecidableEq, Repr

/-- What is wrong with the arguments of a command. -/
inductive UsageFault where
  /-- There is no such option; others have a similar name. -/
  | unknownOption (name : Text) (similar : List Text)
  /-- The value of an option is missing. -/
  | needsValue (name : Text)
  /-- An option has a value that takes none. -/
  | takesNoValue (name : Text)
  /-- An argument is missing. -/
  | missing (title : Text)
  /-- There are more arguments than the command has. -/
  | extra (arguments : List Text)
  /-- The value in a place is invalid for a reason. -/
  | invalid (place reason : Text)
  /-- There is no such command; others have a similar name. -/
  | unknownCommand (name : Text) (similar : List Text)
deriving DecidableEq, Repr

/-- Options in the order in which they were given, each with its value, and the other arguments. -/
structure Arguments where
  /-- The options. -/
  options : List (OptionSpec × Text)
  /-- The arguments without a name. -/
  others : List Text
deriving DecidableEq, Repr

namespace OptionSpec

/-- A name with two dashes. -/
def isLongName (name : Text) : Bool := (name.after? "--").isSome

/-- The long names of options. -/
def longNames (specs : List OptionSpec) : List Text :=
  (specs.flatMap OptionSpec.names).filter isLongName

/-- The option with a name. -/
def find? (specs : List OptionSpec) (name : Text) : Option OptionSpec :=
  specs.find? fun o => o.names.contains name

/-- The options behind a single dash, one for each letter up to one that has a value. The value is
what is left, or else still to come. -/
def readLetters (specs : List OptionSpec) :
    Text → Except UsageFault (List (OptionSpec × Text) × Option (OptionSpec × Text))
  | [] => .ok ([], none)
  | c :: rest =>
    let name : Text := [.char '-', c]
    match find? specs name with
    | none => .error (.unknownOption name [])
    | some o =>
      if o.value.isNone then
        (readLetters specs rest).map fun (found, open_) => ((o, []) :: found, open_)
      else if rest.isEmpty then .ok ([], some (o, name))
      else .ok ([(o, rest)], none)

/-- The options in one argument, and one whose value is still to come. -/
def readArgument (specs : List OptionSpec) (arg : Text) :
    Except UsageFault (List (OptionSpec × Text) × Option (OptionSpec × Text)) :=
  let (name, value) : Text × Option Text := match Text.cut? (.char '=') arg with
    | some (name, value) => (name, some value)
    | none => (arg, none)
  match if isLongName name then find? specs name else none with
  | some o =>
    match o.value, value with
    | some _, some v => .ok ([(o, v)], none)
    | some _, none => .ok ([], some (o, name))
    | none, some _ => .error (.takesNoValue name)
    | none, none => .ok ([(o, [])], none)
  | none =>
    if isLongName arg then
      .error (.unknownOption name (Text.similar name (longNames specs)))
    else readLetters specs (arg.drop 1)

end OptionSpec

/-- An argument that holds options. -/
def holdsOptions (arg : Text) : Bool := arg.head? = some (.char '-') && arg.length > 1

/-- The options among arguments, and the other arguments. Unless options may stand behind other
arguments, everything behind the first other argument counts among those. -/
def readOptions (specs : List OptionSpec) (mixed : Bool) : List Text → Except UsageFault Arguments
  | [] => .ok ⟨[], []⟩
  | arg :: rest =>
    if arg = "--" then .ok ⟨[], rest⟩
    else if holdsOptions arg then
      match OptionSpec.readArgument specs arg with
      | .error f => .error f
      | .ok (found, none) =>
        (readOptions specs mixed rest).map fun a => { a with options := found ++ a.options }
      | .ok (found, some (o, name)) =>
        match rest with
        | [] => .error (.needsValue name)
        | value :: rest =>
          (readOptions specs mixed rest).map fun a =>
            { a with options := found ++ (o, value) :: a.options }
    else if mixed then
      (readOptions specs mixed rest).map fun a => { a with others := arg :: a.others }
    else .ok ⟨[], arg :: rest⟩

/-- The integer that an argument stands for. -/
def integer? (t : Text) : Option Int :=
  if (t.filter fun s => s.decimal?.isSome).length > Text.maxDigits then none else Text.readInt? 10 t

/-- What is at the end of a path, as it is written: a slash or a dot behind a name needs a
directory. -/
def entryAt? (fs : Files) (t : Text) : Option Entry :=
  let last := (Text.splitOn (.char '/') t).getLast?.getD []
  if t.isEmpty then none
  else
    match fs.entry? (.ofText t) with
    | some (.file bytes) => if last.isEmpty || last = "." then none else some (.file bytes)
    | e => e

/-- Why a value is not what it has to be, where it is not. -/
def ValueKind.objection? (fs : Files) (t : Text) : ValueKind → Option Text
  | .text => none
  | .integer =>
    if (integer? t).isSome then none else some (t.quoted ++ " is not a valid integer.")
  | .atLeast least =>
    match integer? t with
    | none => some (t.quoted ++ " is not a valid integer range.")
    | some n =>
      if n < least then
        some (Text.ofInt n ++ " is not in the range x>=" ++ Text.ofInt least ++ ".")
      else none
  | .word words =>
    if words.contains t then none
    else some (t.quoted ++ " is not one of " ++ Text.join ", " (words.map Text.quoted) ++ ".")
  | .anyCase words =>
    if words.contains (Text.lowerAscii t) then none
    else some (t.quoted ++ " is not one of " ++ Text.join ", " (words.map Text.quoted) ++ ".")
  | .file present =>
    match entryAt? fs t with
    | some .directory => some ("File " ++ t.quoted ++ " is a directory.")
    | some (.file _) => none
    | none => if present then some ("File " ++ t.quoted ++ " does not exist.") else none

namespace Arguments

/-- The value of an option that was given last, by one of its names. -/
def value? (a : Arguments) (name : Text) : Option Text :=
  (a.options.reverse.find? fun p => p.1.names.contains name).map (·.2)

/-- The values of an option, by one of its names. -/
def values (a : Arguments) (name : Text) : List Text :=
  (a.options.filter fun p => p.1.names.contains name).map (·.2)

/-- What is wrong with the value of an option, of which the last one counts. -/
def optionFault? (fs : Files) (a : Arguments) (o : OptionSpec) : Option UsageFault :=
  match o.value, (a.options.reverse.find? fun p => p.1 = o).map (·.2) with
  | some kind, some t =>
    (kind.objection? fs t).map (.invalid (Text.join " / " (o.names.map Text.quoted)))
  | _, _ => none

/-- What is wrong with the arguments without a name. -/
def othersFault? (fs : Files) : List ArgumentSpec → List Text → Option UsageFault
  | [], [] => none
  | [], extra => some (.extra extra)
  | spec :: _, [] => some (.missing spec.title)
  | spec :: specs, t :: rest =>
    let fault (t : Text) : Option UsageFault :=
      (spec.value.objection? fs t).map (.invalid spec.title.quoted)
    if spec.many then (t :: rest).findSome? fault
    else (fault t).or (othersFault? fs specs rest)

/-- The arguments of a command, checked. -/
def read (fs : Files) (c : CommandSpec) (args : List Text) : Except UsageFault Arguments :=
  match readOptions c.options true args with
  | .error f => .error f
  | .ok a =>
    match (a.options.findSome? fun p => optionFault? fs a p.1).or
        (othersFault? fs c.arguments a.others) with
    | some f => .error f
    | none => .ok a

end Arguments

/-- A proposal of names that are similar to one that there is not, and are called something. -/
def proposal (called : Text) : List Text → Text
  | [] => []
  | [one] => " Did you mean " ++ one.quoted ++ "?"
  | similar => " (Possible " ++ called ++ ": " ++ Text.join ", " (similar.map Text.quoted) ++ ")"

/-- The wording of a fault. -/
def UsageFault.message : UsageFault → Text
  | .unknownOption name similar =>
    "No such option " ++ name.quoted ++ "." ++ proposal "options" similar
  | .needsValue name => "Option " ++ name.quoted ++ " requires an argument."
  | .takesNoValue name => "Option " ++ name.quoted ++ " does not take a value."
  | .missing title => "Missing argument " ++ title.quoted ++ "."
  | .extra [one] => "Got unexpected extra argument (" ++ one ++ ")"
  | .extra arguments => "Got unexpected extra arguments (" ++ Text.join " " arguments ++ ")"
  | .invalid place reason => "Invalid value for " ++ place ++ ": " ++ reason
  | .unknownCommand name similar =>
    "No such command " ++ name.quoted ++ "." ++ proposal "commands" similar

/-- A fault that is reported without saying how the command is used. -/
def UsageFault.isBare : UsageFault → Bool
  | .needsValue _ | .takesNoValue _ => true
  | _ => false

/-- The name of the program. -/
def program : Text := "button-workflow"

/-- How a command is used, or the program as a whole. -/
def usage : Option CommandSpec → Text
  | none => program ++ " [OPTIONS] COMMAND [ARGS]..."
  | some c =>
    Text.join " " (program :: c.name :: "[OPTIONS]" :: c.arguments.map ArgumentSpec.title)

/-- What is reported about a fault in the arguments of a command, or of the program as a whole. -/
def UsageFault.report (c : Option CommandSpec) (f : UsageFault) : Text :=
  let error : Text := "Error: " ++ f.message ++ "\n"
  let path : Text := match c with
    | none => program
    | some c => program ++ " " ++ c.name
  if f.isBare then error
  else
    "Usage: " ++ usage c ++ "\nTry '" ++ path ++ " --help' for help.\n\n" ++ error

end Cli

end PushButton
