import PushButton.Text.Blank

/-!
# Numerals

Integers are written in decimal without leading zeros. They are read more freely: white space
around the numeral, a sign, single underscores between digits, leading zeros and the decimal
digits of every script are accepted, in any base up to sixteen.
-/

namespace PushButton

namespace Symbol

/-- The zeros of the decimal digits of every script, in increasing order; nine more digits follow
each of them. The list follows version 14 of the Unicode character database. -/
def decimalZeros : List Nat :=
  [48, 1632, 1776, 1984, 2406, 2534, 2662, 2790, 2918, 3046, 3174, 3302, 3430, 3558, 3664, 3792,
    3872, 4160, 4240, 6112, 6160, 6470, 6608, 6784, 6800, 6992, 7088, 7232, 7248, 42528, 43216,
    43264, 43472, 43504, 43600, 44016, 65296, 66720, 68912, 69734, 69872, 69942, 70096, 70384,
    70736, 70864, 71248, 71360, 71472, 71904, 72016, 72784, 73040, 73120, 92768, 92864, 93008,
    120782, 120792, 120802, 120812, 120822, 123200, 123632, 125264, 130032]

/-- The value of a decimal digit of any script. -/
def decimal? (s : Symbol) : Option Nat :=
  (decimalZeros.find? fun z => z ≤ s.code && s.code ≤ z + 9).map fun z => s.code - z

/-- The value of a digit in bases up to sixteen: decimal digits of any script, then letters. -/
def baseDigit? (base : Nat) (s : Symbol) : Option Nat :=
  (s.decimal?.or s.hexDigit?).filter (· < base)

end Symbol

namespace Text

/-- A natural number in decimal. -/
def ofNat (n : Nat) : Text := (Nat.toDigits 10 n).map .char

/-- An integer in decimal, with a sign when it is negative. -/
def ofInt : Int → Text
  | .ofNat n => ofNat n
  | .negSucc n => .char '-' :: ofNat (n + 1)

/-- A natural number in small hexadecimal digits, zeros put in front up to a width. -/
def hex (width n : Nat) : Text :=
  let digits := (Nat.toDigits 16 n).map Symbol.char
  List.replicate (width - digits.length) (.char '0') ++ digits

/-- A natural number in decimal, zeros put in front up to a width. -/
def padded (width n : Nat) : Text :=
  let digits := ofNat n
  List.replicate (width - digits.length) (.char '0') ++ digits

/-- The values of digits, with single underscores allowed between two of them. -/
def digits? (base : Nat) : Text → Option (List Nat)
  | [] => none
  | [x] => (x.baseDigit? base).map ([·])
  | x :: .char '_' :: rest => do
    let d ← x.baseDigit? base
    let ds ← digits? base rest
    some (d :: ds)
  | x :: rest => do
    let d ← x.baseDigit? base
    let ds ← digits? base rest
    some (d :: ds)

/-- The number that a list of digits stands for. -/
def ofDigits (base : Nat) (ds : List Nat) : Nat := ds.foldl (fun n d => base * n + d) 0

/-- A sign, where there is one, and the rest of a numeral. -/
def signed : Text → Bool × Text
  | .char '-' :: rest => (true, rest)
  | .char '+' :: rest => (false, rest)
  | rest => (false, rest)

/-- The mark in front of a numeral of base two, eight or sixteen dropped, with one underscore
after it. -/
def dropBaseMark (base : Nat) (t : Text) : Text :=
  let marks : List Symbol :=
    if base = 16 then [.char 'x', .char 'X']
    else if base = 8 then [.char 'o', .char 'O']
    else if base = 2 then [.char 'b', .char 'B']
    else []
  match t with
  | .char '0' :: m :: .char '_' :: rest => if marks.contains m then rest else t
  | .char '0' :: m :: rest => if marks.contains m then rest else t
  | _ => t

/-- The most decimal digits that an integer may have. -/
def maxDigits : Nat := 4300

/-- The message about an integer with too many digits, where their number is known. -/
def tooManyDigits (count : Option Nat) : Text :=
  let size : Text := (count.map fun n => ": value has " ++ ofNat n ++ " digits").getD []
  "Exceeds the limit (" ++ ofNat maxDigits ++ " digits) for integer string conversion" ++ size ++
    "; use sys.set_int_max_str_digits() to increase the limit"

/-- An integer has more digits than are written. -/
def isTooLong (n : Int) : Bool := Nat.pow 10 maxDigits ≤ n.natAbs

/-- The integer that a numeral of a base stands for. -/
def readInt? (base : Nat) (t : Text) : Option Int := do
  let (negative, digits) := signed t.strip
  let ds ← digits? base (dropBaseMark base digits)
  let n := ofDigits base ds
  some (if negative then -n else n)

end Text

end PushButton
