import PushButton.Decimal.Shortest

/-!
# Notation of floating-point numbers

Numbers are written in their shortest form: positional from `1e-4` up to `1e16`, with at least one
digit after the point, and with an exponent of at least two digits beyond. They can also be written
with a fixed number of places, a tie going to the even neighbour. Every form that is written is
read back.
-/

namespace PushButton

namespace Decimal

/-- Digits with the point after a number of them; zeros fill the places that are missing. -/
def positional (digits : Text) (point : Int) : Text :=
  let zero : Symbol := .char '0'
  if point ≤ 0 then "0." ++ List.replicate point.natAbs zero ++ digits
  else
    let n := point.natAbs
    if digits.length ≤ n then digits ++ List.replicate (n - digits.length) zero ++ ".0"
    else digits.take n ++ "." ++ digits.drop n

/-- Digits with the point after the first, and an exponent of ten. -/
def exponential (digits : Text) (exponent : Int) : Text :=
  let sign : Text := if exponent < 0 then "e-" else "e+"
  let fraction : Text := if digits.length ≤ 1 then [] else "." ++ digits.drop 1
  digits.take 1 ++ fraction ++ sign ++ Text.padded 2 exponent.natAbs

/-- A finite number in its shortest form. -/
def Dyadic.written (d : Dyadic) : Text :=
  let sign : Text := if d.negative then "-" else ""
  if d.significand = 0 then sign ++ "0.0"
  else
    let s := d.shortest
    let digits := Text.ofNat s.digits
    let point := s.exponent + digits.length
    if -4 < point ∧ point ≤ 16 then sign ++ positional digits point
    else sign ++ exponential digits (point - 1)

/-- A finite number with a fixed number of places, a tie going to the even neighbour. -/
def Dyadic.fixed (places : Nat) (d : Dyadic) : Text :=
  let v := Ratio.ofDyadic (d.significand * tenTo places) d.exponent
  let n := v.num / v.den
  let twice := 2 * (v.num % v.den)
  let rounded := if twice > v.den || (twice = v.den && n % 2 = 1) then n + 1 else n
  let sign : Text := if d.negative then "-" else ""
  let fraction : Text :=
    if places = 0 then [] else "." ++ Text.padded places (rounded % tenTo places)
  sign ++ Text.ofNat (rounded / tenTo places) ++ fraction

/-- A number in its shortest form. -/
def written (x : Float) : Text :=
  match Magnitude.ofFloat x with
  | .finite d => d.written
  | .infinite negative => if negative then "-inf" else "inf"
  | .nan => "nan"

/-- A number with a fixed number of places. -/
def fixed (places : Nat) (x : Float) : Text :=
  match Magnitude.ofFloat x with
  | .finite d => d.fixed places
  | .infinite negative => if negative then "-inf" else "inf"
  | .nan => "nan"

/-- The number nearest to `digits * 10 ^ exponent`. -/
def toFloat (negative : Bool) (digits : Nat) (exponent : Int) : Float :=
  let size := exponent + digitCount digits
  let x : Float :=
    if digits = 0 then 0
    else if size > 400 then 1 / 0
    else if size < -400 then 0
    else Float.ofScientific digits (exponent < 0) exponent.natAbs
  if negative then -x else x

/-- The digits of a numeral, single underscores between two of them dropped, or nothing. -/
def digitRun? (t : Text) : Option (List Nat) := if t.isEmpty then some [] else Text.digits? 10 t

/-- The exponent after the letter `e`. -/
def readExponent? (t : Text) : Option Int := do
  let (negative, digits) := Text.signed t
  let ds ← Text.digits? 10 digits
  let n := Text.ofDigits 10 ds
  some (if negative then -n else n)

/-- A decimal numeral without a sign: digits, a point, digits and an exponent, with at least one
digit beside the point. -/
def readUnsigned? (negative : Bool) (t : Text) : Option Float := do
  let mantissa := t.takeWhile fun s => s != .char 'e' && s != .char 'E'
  let exponent ← match t.drop mantissa.length with
    | [] => some 0
    | _ :: rest => readExponent? rest
  let (whole, fraction) := (Text.cut? (.char '.') mantissa).getD (mantissa, [])
  let ws ← digitRun? whole
  let fs ← digitRun? fraction
  if ws.isEmpty && fs.isEmpty then none
  else some (toFloat negative (Text.ofDigits 10 (ws ++ fs)) (exponent - fs.length))

/-- The number that a text stands for: a decimal numeral, `inf`, `infinity` or `nan`, with white
space around it. -/
def readFloat? (t : Text) : Option Float :=
  let (negative, rest) := Text.signed t.strip
  let word := Text.lowerAscii rest
  if word = "inf" || word = "infinity" then some (if negative then -(1 / 0) else 1 / 0)
  else if word = "nan" then some (0 / 0)
  else readUnsigned? negative rest

end Decimal

end PushButton
