import PushButton.Text.Blank
import PushButton.Text.Numeral

/-!
# Styles

A style is named by words: attributes, each perhaps after `not`, a colour, a colour after `on`, and
a target after `link`. Two names of one style have the same normal name, in which the words stand
in a fixed order. A name that is no style is made small and trimmed.
-/

namespace PushButton

namespace Text

/-- The words of a text: what stands between white space. -/
def words : Text → List Text
  | [] => []
  | s :: rest =>
    if s.isBlank then words rest
    else
      match rest with
      | [] => [[s]]
      | next :: _ =>
        if next.isBlank then [s] :: words rest
        else
          match words rest with
          | [] => [[s]]
          | word :: more => (s :: word) :: more

end Text

/-- A style: its attributes, its colours and its target. -/
structure Style where
  /-- The attributes that are set, each on or off. -/
  attributes : List (Text × Bool) := []
  /-- The colour. -/
  color : Option Text := none
  /-- The colour behind. -/
  background : Option Text := none
  /-- The target of a link. -/
  link : Option Text := none
deriving DecidableEq, Repr

namespace Style

/-- The attributes in the order in which they are named. -/
def attributeNames : List Text :=
  ["bold", "dim", "italic", "underline", "blink", "blink2", "reverse", "conceal", "strike",
    "underline2", "frame", "encircle", "overline"]

/-- The short names of attributes. -/
def shortNames : List (Text × Text) :=
  [("d", "dim"), ("b", "bold"), ("i", "italic"), ("u", "underline"), ("r", "reverse"),
    ("c", "conceal"), ("s", "strike"), ("uu", "underline2"), ("o", "overline")]

/-- The attribute with a name or a short name. -/
def attribute? (t : Text) : Option Text :=
  if attributeNames.contains t then some t else (shortNames.find? fun p => p.1 = t).map (·.2)

/-- The numbers of the shades of grey. -/
def greys : List Nat :=
  [0, 3, 7, 11, 15, 19, 23, 27, 30, 35, 37, 39, 42, 46, 50, 53, 54, 58, 62, 63, 66, 69, 70, 74, 78,
    82, 84, 85, 89, 93, 100]

/-- The names of the colours of terminals, shades of grey apart. -/
def colorNames : List Text :=
  Text.words
    ("default black red green yellow blue magenta cyan white bright_black bright_red " ++
    "bright_green bright_yellow bright_blue bright_magenta bright_cyan bright_white navy_blue " ++
    "dark_blue blue3 blue1 dark_green deep_sky_blue4 dodger_blue3 dodger_blue2 green4 " ++
    "spring_green4 turquoise4 deep_sky_blue3 dodger_blue1 green3 spring_green3 dark_cyan " ++
    "light_sea_green deep_sky_blue2 deep_sky_blue1 spring_green2 cyan3 dark_turquoise " ++
    "turquoise2 green1 spring_green1 medium_spring_green cyan2 cyan1 dark_red deep_pink4 " ++
    "purple4 purple3 blue_violet orange4 medium_purple4 slate_blue3 royal_blue1 chartreuse4 " ++
    "dark_sea_green4 pale_turquoise4 steel_blue steel_blue3 cornflower_blue chartreuse3 " ++
    "cadet_blue sky_blue3 steel_blue1 pale_green3 sea_green3 aquamarine3 medium_turquoise " ++
    "chartreuse2 sea_green2 sea_green1 aquamarine1 dark_slate_gray2 dark_magenta dark_violet " ++
    "purple light_pink4 plum4 medium_purple3 slate_blue1 yellow4 wheat4 light_slate_grey " ++
    "light_slate_gray medium_purple light_slate_blue dark_olive_green3 dark_sea_green " ++
    "light_sky_blue3 sky_blue2 dark_sea_green3 dark_slate_gray3 sky_blue1 chartreuse1 " ++
    "light_green pale_green1 dark_slate_gray1 red3 medium_violet_red magenta3 dark_orange3 " ++
    "indian_red hot_pink3 medium_orchid3 medium_orchid medium_purple2 dark_goldenrod " ++
    "light_salmon3 rosy_brown medium_purple1 gold3 dark_khaki navajo_white3 " ++
    "light_steel_blue3 light_steel_blue yellow3 dark_sea_green2 light_cyan3 light_sky_blue1 " ++
    "green_yellow dark_olive_green2 dark_sea_green1 pale_turquoise1 deep_pink3 magenta2 " ++
    "hot_pink2 orchid medium_orchid1 orange3 light_pink3 pink3 plum3 violet light_goldenrod3 " ++
    "tan misty_rose3 thistle3 plum2 khaki3 light_goldenrod2 light_yellow3 light_steel_blue1 " ++
    "yellow2 dark_olive_green1 honeydew2 light_cyan1 red1 deep_pink2 deep_pink1 magenta1 " ++
    "orange_red1 indian_red1 hot_pink dark_orange salmon1 light_coral pale_violet_red1 " ++
    "orchid2 orchid1 orange1 sandy_brown light_salmon1 light_pink1 pink1 plum1 gold1 " ++
    "navajo_white1 misty_rose1 thistle1 yellow1 light_goldenrod1 khaki1 wheat1 cornsilk1" : String)

/-- A number from 0 to 255. -/
def isChannel (t : Text) : Bool :=
  !t.isEmpty && t.all Symbol.isDigit && decide (Text.ofDigits 10 (t.filterMap Symbol.digit?) ≤ 255)

/-- What stands between a beginning and a closing bracket. -/
def argument? (t start : Text) : Option Text :=
  match Text.after? t start with
  | none => none
  | some rest => if rest.getLast? = some (.char ')') then some rest.dropLast else none

/-- A text in small letters is a colour: a name, six hexadecimal digits after `#`, a number, or
three numbers. -/
def isColor (t : Text) : Bool :=
  colorNames.contains t ||
    greys.any (fun n => t = "grey" ++ Text.ofNat n || t = "gray" ++ Text.ofNat n) ||
    (match Text.after? t "#" with
      | some digits => digits.length = 6 && digits.all fun s => s.hexDigit?.isSome
      | none => false) ||
    (match argument? t "color(" with
      | some number => number.length ≤ 3 && isChannel number
      | none => false) ||
    (match argument? t "rgb(" with
      | some numbers =>
        let channels := Text.splitOn (.char ',') numbers
        channels.length = 3 && channels.all isChannel
      | none => false)

/-- A style with an attribute on or off. -/
def set (name : Text) (on : Bool) (s : Style) : Style :=
  { s with attributes := s.attributes.filter (·.1 ≠ name) ++ [(name, on)] }

/-- The style that words name, on top of another one. -/
def ofWords? : List Text → Style → Option Style
  | [], s => some s
  | word :: rest, s =>
    let small := Text.lowerAscii word
    if small = "on" then
      match rest with
      | [] => none
      | color :: rest =>
        let color := Text.lowerAscii color
        if isColor color then ofWords? rest { s with background := some color } else none
    else if small = "not" then
      match rest with
      | [] => none
      | name :: rest => (attribute? name).bind fun name => ofWords? rest (s.set name false)
    else if small = "link" then
      match rest with
      | [] => none
      | target :: rest => ofWords? rest { s with link := some target }
    else
      match attribute? small with
      | some name => ofWords? rest (s.set name true)
      | none => if isColor small then ofWords? rest { s with color := some small } else none

/-- The normal name of a style. -/
def name (s : Style) : Text :=
  let attributes : List Text := attributeNames.filterMap fun a =>
    (s.attributes.find? fun p => p.1 = a).map fun p => if p.2 then a else "not " ++ a
  let colors : List Text := (s.color.toList ++ match s.background with
    | some c => ["on", c]
    | none => [])
  let target : List Text := match s.link with
    | some t => ["link", t]
    | none => []
  let all := attributes ++ colors ++ target
  if all.isEmpty then "none" else Text.join " " all

/-- The normal form of a name, which two names of one style share. -/
def normal (t : Text) : Text :=
  let words := Text.words t
  if words = [("none" : Text)] then "none"
  else
    match ofWords? words {} with
    | some s => s.name
    | none => Text.lowerAscii t.strip

end Style

end PushButton
