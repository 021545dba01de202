import PushButton.Text.Numeral

/-!
# The shortest decimal that reads back

A floating-point number is written with as few significant digits as single it out among all
floating-point numbers, and of several such decimals with the one nearest to it. The numbers below
are exact: a finite number is a significand times a power of two, and the reals that round to it
form an interval around it, whose ends belong to it when the significand is even.
-/

namespace PushButton

namespace Decimal

/-- A finite floating-point number: `significand * 2 ^ exponent`, negative or not. -/
structure Dyadic where
  /-- Whether the sign is negative, which zero can have too. -/
  negative : Bool
  /-- The significand, below `2 ^ 53`. -/
  significand : Nat
  /-- The exponent of two, at least `-1074`. -/
  exponent : Int
deriving DecidableEq, Repr

/-- The kinds of floating-point numbers. -/
inductive Magnitude where
  /-- A finite number. -/
  | finite (d : Dyadic)
  /-- An infinity, negative or not. -/
  | infinite (negative : Bool)
  /-- Not a number. -/
  | nan
deriving DecidableEq, Repr

/-- The bit in front of the fraction that the bits of a floating-point number leave out: `2 ^ 52`. -/
def hiddenBit : Nat := 0x10000000000000

/-- What the bits of a floating-point number stand for. -/
def Magnitude.ofFloat (x : Float) : Magnitude :=
  let bits := x.toBits.toNat
  let negative := bits >>> 63 = 1
  let field : Nat := bits >>> 52 % 0x800
  let fraction := bits % hiddenBit
  if field = 2047 then if fraction = 0 then .infinite negative else .nan
  else if field = 0 then .finite ⟨negative, fraction, -1074⟩
  else .finite ⟨negative, hiddenBit + fraction, (field : Int) - 1075⟩

/-- A fraction of natural numbers. -/
structure Ratio where
  /-- The numerator. -/
  num : Nat
  /-- The denominator, not zero. -/
  den : Nat
deriving DecidableEq, Repr

/-- The fraction `n * 2 ^ e`. -/
def Ratio.ofDyadic (n : Nat) (e : Int) : Ratio :=
  if e < 0 then ⟨n, 1 <<< e.natAbs⟩ else ⟨n <<< e.natAbs, 1⟩

/-- A power of ten. -/
def tenTo (n : Nat) : Nat := Nat.pow 10 n

/-- The fraction `n * 10 ^ e`. -/
def Ratio.ofDecimal (n : Nat) (e : Int) : Ratio :=
  if e < 0 then ⟨n, tenTo e.natAbs⟩ else ⟨n * tenTo e.natAbs, 1⟩

/-- Order of fractions. -/
def Ratio.le (a b : Ratio) : Bool := a.num * b.den ≤ b.num * a.den

/-- Strict order of fractions. -/
def Ratio.lt (a b : Ratio) : Bool := a.num * b.den < b.num * a.den

/-- The greatest `n` with `n * 10 ^ e` at most the fraction. -/
def Ratio.floorAt (a : Ratio) (e : Int) : Nat :=
  if e < 0 then a.num * tenTo e.natAbs / a.den else a.num / (a.den * tenTo e.natAbs)

/-- The number of decimal digits of a natural number. -/
def digitCount (n : Nat) : Nat := (Nat.toDigits 10 n).length

/-- The exponent of the first significant decimal digit of a fraction other than zero. -/
def Ratio.leadingExponent (a : Ratio) : Int :=
  if a.den ≤ a.num then (digitCount (a.num / a.den) : Int) - 1
  else
    let n := digitCount (a.den / a.num)
    if a.den ≤ a.num * tenTo (n - 1) then 1 - (n : Int) else -(n : Int)

/-- A decimal: `digits * 10 ^ exponent`. -/
structure Scaled where
  /-- The digits, as a number. -/
  digits : Nat
  /-- The exponent of ten. -/
  exponent : Int
deriving DecidableEq, Repr

/-- The interval of reals that round to a floating-point number, in quarters of its unit. -/
def Dyadic.low (d : Dyadic) : Ratio :=
  let gap := if d.significand = hiddenBit && d.exponent > -1074 then 1 else 2
  .ofDyadic (4 * d.significand - gap) (d.exponent - 2)

/-- The upper end of the interval of reals that round to a floating-point number. -/
def Dyadic.high (d : Dyadic) : Ratio := .ofDyadic (4 * d.significand + 2) (d.exponent - 2)

/-- The number itself as a fraction. -/
def Dyadic.value (d : Dyadic) : Ratio := .ofDyadic (4 * d.significand) (d.exponent - 2)

/-- The decimal rounds to the floating-point number. -/
def Dyadic.covers (d : Dyadic) (s : Scaled) : Bool :=
  let x := Ratio.ofDecimal s.digits s.exponent
  if d.significand % 2 = 0 then d.low.le x && x.le d.high else d.low.lt x && x.lt d.high

/-- The decimal on the grid of multiples of `10 ^ e` that rounds to the number, the nearer one
where both neighbours do. -/
def Dyadic.onGrid? (d : Dyadic) (e : Int) : Option Scaled :=
  let below := d.value.floorAt e
  let lower : Scaled := ⟨below, e⟩
  let above : Scaled := ⟨below + 1, e⟩
  match d.covers lower, d.covers above with
  | true, false => some lower
  | false, true => some above
  | false, false => none
  | true, true =>
    let twice := Ratio.ofDecimal (2 * below + 1) e
    let value : Ratio := ⟨2 * d.value.num, d.value.den⟩
    if value.lt twice || (value.le twice && below % 2 = 0) then some lower else some above

/-- Final zeros of the digits moved into the exponent. -/
def Scaled.reduce (s : Scaled) : Nat → Scaled
  | 0 => s
  | n + 1 =>
    if s.digits ≠ 0 ∧ s.digits % 10 = 0 then Scaled.reduce ⟨s.digits / 10, s.exponent + 1⟩ n else s

/-- The shortest decimal that rounds to a floating-point number other than zero. -/
def Dyadic.shortest (d : Dyadic) : Scaled :=
  let lead := d.value.leadingExponent
  let found := (List.range 17).findSome? fun (n : Nat) => d.onGrid? (lead - n)
  (found.getD ⟨d.value.floorAt (lead - 17), lead - 17⟩).reduce 20

end Decimal

end PushButton
