import PushButton.Bytes.Utf8

/-!
# Bytes in base 64

Four digits stand for three bytes. What is no digit is passed over, and the data end at the padding
that completes a group of four.
-/

namespace PushButton

namespace Base64

/-- The value of a digit. -/
def digit? : Symbol → Option Nat
  | .char c =>
    if 'A' ≤ c ∧ c ≤ 'Z' then some (c.toNat - 'A'.toNat)
    else if 'a' ≤ c ∧ c ≤ 'z' then some (c.toNat - 'a'.toNat + 26)
    else if '0' ≤ c ∧ c ≤ '9' then some (c.toNat - '0'.toNat + 52)
    else if c = '+' then some 62
    else if c = '/' then some 63
    else none
  | .lone _ => none

/-- The digits in front of the padding that ends the data; `place` counts the digits of the group
so far, and `pads` the padding since its last digit. -/
def digits : (place pads : Nat) → Text → List Nat
  | _, _, [] => []
  | place, pads, s :: rest =>
    if s = .char '=' then
      if 2 ≤ place then
        if 4 ≤ place + (pads + 1) then [] else digits place (pads + 1) rest
      else digits place pads rest
    else
      match digit? s with
      | none => digits place pads rest
      | some d => d :: digits ((place + 1) % 4) 0 rest

/-- The digits are followed by the padding that completes their group. -/
def isPadded : (place pads : Nat) → Text → Bool
  | place, _, [] => place = 0
  | place, pads, s :: rest =>
    if s = .char '=' then
      if 2 ≤ place then
        if 4 ≤ place + (pads + 1) then true else isPadded place (pads + 1) rest
      else isPadded place pads rest
    else
      match digit? s with
      | none => isPadded place pads rest
      | some _ => isPadded ((place + 1) % 4) 0 rest

/-- The bytes of groups of digits. -/
def bytesOf : List Nat → Bytes
  | a :: b :: c :: d :: rest =>
    .ofNat (a * 4 + b / 16) :: .ofNat (b % 16 * 16 + c / 4) :: .ofNat (c % 4 * 64 + d) ::
      bytesOf rest
  | [a, b, c] => [.ofNat (a * 4 + b / 16), .ofNat (b % 16 * 16 + c / 4)]
  | [a, b] => [.ofNat (a * 4 + b / 16)]
  | _ => []

/-- The bytes that a text stands for; nothing when its last group is not complete. -/
def decode? (t : Text) : Option Bytes :=
  if isPadded 0 0 t then some (bytesOf (digits 0 0 t)) else none

end Base64

end PushButton
