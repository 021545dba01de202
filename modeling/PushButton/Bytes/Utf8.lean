import PushButton.Text.Numeral

/-!
# UTF-8

Plain text has exactly one UTF-8 form, and half of a surrogate pair has none. Bytes that are no
UTF-8 are refused at the first sequence that cannot be completed, with the positions it covers.
-/

namespace PushButton

/-- A sequence of bytes. -/
abbrev Bytes := List UInt8

namespace Utf8

/-- Why a sequence of bytes is no UTF-8. -/
inductive Defect where
  /-- No character starts with this byte. -/
  | start
  /-- The sequence is broken off by a byte that does not continue it. -/
  | continuation
  /-- The data end inside the sequence. -/
  | ending
deriving DecidableEq, Repr

/-- The place of the bytes that are no UTF-8: `size` bytes from `position` on, the first of which
is `byte`. -/
structure DecodeError where
  /-- The position of the first byte of the sequence. -/
  position : Nat
  /-- The number of bytes of the sequence. -/
  size : Nat
  /-- The first byte. -/
  byte : UInt8
  /-- What is wrong with the sequence. -/
  defect : Defect
deriving DecidableEq, Repr

/-- The place of lone halves of surrogate pairs, which have no UTF-8 form. -/
structure EncodeError where
  /-- The position of the first one. -/
  position : Nat
  /-- How many follow each other, at least one. -/
  size : Nat
  /-- The first one. -/
  symbol : Symbol
deriving DecidableEq, Repr

/-- The wording of a defect. -/
def Defect.message : Defect → Text
  | .start => "invalid start byte"
  | .continuation => "invalid continuation byte"
  | .ending => "unexpected end of data"

/-- The message about bytes that are no UTF-8. -/
def DecodeError.message (e : DecodeError) : Text :=
  if e.size = 1 then
    "'utf-8' codec can't decode byte 0x" ++ Text.hex 2 e.byte.toNat ++ " in position " ++
      Text.ofNat e.position ++ ": " ++ e.defect.message
  else
    "'utf-8' codec can't decode bytes in position " ++ Text.ofNat e.position ++ "-" ++
      Text.ofNat (e.position + e.size - 1) ++ ": " ++ e.defect.message

/-- The message about text without a UTF-8 form. -/
def EncodeError.message (e : EncodeError) : Text :=
  if e.size = 1 then
    "'utf-8' codec can't encode character '\\u" ++ Text.hex 4 e.symbol.code ++ "' in position " ++
      Text.ofNat e.position ++ ": surrogates not allowed"
  else
    "'utf-8' codec can't encode characters in position " ++ Text.ofNat e.position ++ "-" ++
      Text.ofNat (e.position + e.size - 1) ++ ": surrogates not allowed"

/-- The bytes of a character. -/
def encodeChar (c : Char) : Bytes :=
  let n := c.toNat
  let tail (shift : Nat) : UInt8 := .ofNat (0x80 + n >>> shift % 64)
  if n < 0x80 then [.ofNat n]
  else if n < 0x800 then [.ofNat (0xC0 + n >>> 6), tail 0]
  else if n < 0x10000 then [.ofNat (0xE0 + n >>> 12), tail 6, tail 0]
  else [.ofNat (0xF0 + n >>> 18), tail 12, tail 6, tail 0]

/-- The bytes of a text whose first symbol stands at a position of a larger text. -/
def encodeFrom (position : Nat) : Text → Except EncodeError Bytes
  | [] => .ok []
  | .char c :: rest => (encodeFrom (position + 1) rest).map (encodeChar c ++ ·)
  | .lone i :: rest =>
    .error ⟨position, (rest.takeWhile (!·.isChar)).length + 1, .lone i⟩

/-- The bytes of a text. -/
def encode (t : Text) : Except EncodeError Bytes := encodeFrom 0 t

/-- A byte that continues a sequence. -/
def isTail (b : UInt8) : Bool := 0x80 ≤ b && b < 0xC0

/-- The second byte may follow the first one of a sequence of three. -/
def fitsThree (a b : UInt8) : Bool := isTail b && (if b < 0xA0 then a != 0xE0 else a != 0xED)

/-- The second byte may follow the first one of a sequence of four. -/
def fitsFour (a b : UInt8) : Bool := isTail b && (if b < 0x90 then a != 0xF0 else a != 0xF4)

/-- The payload of a byte that continues a sequence. -/
def payload (b : UInt8) : Nat := b.toNat % 64

/-- The text of bytes whose first one stands at a position of a larger sequence. -/
def decodeFrom (position : Nat) : Bytes → Except DecodeError Text
  | [] => .ok []
  | a :: r1 =>
    let broken (size : Nat) (d : Defect) : Except DecodeError Text := .error ⟨position, size, a, d⟩
    if a < 0x80 then (decodeFrom (position + 1) r1).map (.char (.ofNat a.toNat) :: ·)
    else if a < 0xC2 || 0xF5 ≤ a then broken 1 .start
    else if a < 0xE0 then
      match r1 with
      | [] => broken 1 .ending
      | b :: r2 =>
        if !isTail b then broken 1 .continuation
        else
          let n := a.toNat % 32 * 64 + payload b
          (decodeFrom (position + 2) r2).map (.char (.ofNat n) :: ·)
    else if a < 0xF0 then
      match r1 with
      | [] => broken 1 .ending
      | b :: r2 =>
        if !fitsThree a b then broken 1 .continuation
        else
          match r2 with
          | [] => broken 2 .ending
          | c :: r3 =>
            if !isTail c then broken 2 .continuation
            else
              let n := (a.toNat % 16 * 64 + payload b) * 64 + payload c
              (decodeFrom (position + 3) r3).map (.char (.ofNat n) :: ·)
    else
      match r1 with
      | [] => broken 1 .ending
      | b :: r2 =>
        if !fitsFour a b then broken 1 .continuation
        else
          match r2 with
          | [] => broken 2 .ending
          | c :: r3 =>
            if !isTail c then broken 2 .continuation
            else
              match r3 with
              | [] => broken 3 .ending
              | d :: r4 =>
                if !isTail d then broken 3 .continuation
                else
                  let n := ((a.toNat % 8 * 64 + payload b) * 64 + payload c) * 64 + payload d
                  (decodeFrom (position + 4) r4).map (.char (.ofNat n) :: ·)

/-- The text of bytes. -/
def decode (bytes : Bytes) : Except DecodeError Text := decodeFrom 0 bytes

end Utf8

end PushButton
