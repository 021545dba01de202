/-!
# Symbols and texts

A text is a list of code points. Nearly every code point is a character, but documents written
with `\uD800`-style escapes can name one half of a surrogate pair alone, and such a half has to
be kept apart from every character. Main statement: a text is the image of a character string
exactly when no lone half occurs in it.
-/

namespace PushButton

/-- One code point: a character, or one half of a surrogate pair that stands alone. -/
inductive Symbol where
  /-- A Unicode scalar value. -/
  | char (c : Char)
  /-- The surrogate code point `0xD800 + offset`. -/
  | lone (offset : Fin 2048)
deriving DecidableEq, Repr, Inhabited

namespace Symbol

/-- The number of a code point. -/
def code : Symbol → Nat
  | .char c => c.toNat
  | .lone i => 0xD800 + i.val

/-- The code point with a given number; numbers past the last code point give `NUL`. -/
def ofCode (n : Nat) : Symbol :=
  if h : 0xD800 ≤ n ∧ n < 0xE000 then .lone ⟨n - 0xD800, by omega⟩ else .char (Char.ofNat n)

/-- A symbol that is a character. -/
def isChar : Symbol → Bool
  | .char _ => true
  | .lone _ => false

/-- The first half of a surrogate pair. -/
def isHighHalf (s : Symbol) : Bool := 0xD800 ≤ s.code && s.code < 0xDC00

/-- The second half of a surrogate pair. -/
def isLowHalf (s : Symbol) : Bool := 0xDC00 ≤ s.code && s.code < 0xE000

/-- Membership in a range of characters, ends included. -/
def within (low high : Char) : Symbol → Bool
  | .char c => low ≤ c && c ≤ high
  | .lone _ => false

/-- A digit `0` to `9`. -/
def isDigit (s : Symbol) : Bool := s.within '0' '9'

/-- An ASCII letter. -/
def isLetter (s : Symbol) : Bool := s.within 'a' 'z' || s.within 'A' 'Z'

/-- The value of a digit `0` to `9`. -/
def digit? : Symbol → Option Nat
  | .char c => if '0' ≤ c ∧ c ≤ '9' then some (c.toNat - '0'.toNat) else none
  | .lone _ => none

/-- The value of a hexadecimal digit of either case. -/
def hexDigit? : Symbol → Option Nat
  | .char c =>
    if '0' ≤ c ∧ c ≤ '9' then some (c.toNat - '0'.toNat)
    else if 'a' ≤ c ∧ c ≤ 'f' then some (c.toNat - 'a'.toNat + 10)
    else if 'A' ≤ c ∧ c ≤ 'F' then some (c.toNat - 'A'.toNat + 10)
    else none
  | .lone _ => none

end Symbol

/-- A text: a list of code points. -/
abbrev Text := List Symbol

namespace Text

/-- The text with the characters of a string. -/
def ofString (s : String) : Text := s.toList.map .char

instance : Coe String Text := ⟨ofString⟩

/-- No half of a surrogate pair stands alone in the text. -/
def IsPlain (t : Text) : Prop := ∀ s ∈ t, s.isChar = true

instance (t : Text) : Decidable t.IsPlain := inferInstanceAs (Decidable (∀ s ∈ t, _))

/-- The characters of a text, where lone halves become the replacement character. -/
def toString (t : Text) : String :=
  String.ofList (t.map fun
    | .char c => c
    | .lone _ => '\ufffd')

theorem isPlain_ofString (s : String) : (ofString s).IsPlain := by
  intro x hx
  obtain ⟨c, _, rfl⟩ := List.mem_map.1 hx
  rfl

/-- A text is an image of a string exactly when it is plain. -/
theorem isPlain_iff_exists (t : Text) : t.IsPlain ↔ ∃ s, t = ofString s := by
  constructor
  · intro h
    refine ⟨t.toString, ?_⟩
    simp only [ofString, toString, String.toList_ofList, List.map_map]
    refine (List.map_id t).symm.trans (List.map_congr_left fun x hx => ?_)
    cases x with
    | char c => rfl
    | lone i => exact absurd (h _ hx) (by simp [Symbol.isChar])
  · rintro ⟨s, rfl⟩
    exact isPlain_ofString s

/-- Lexicographic order by the numbers of the code points. -/
def le (a b : Text) : Bool :=
  match a, b with
  | [], _ => true
  | _ :: _, [] => false
  | x :: xs, y :: ys => x.code < y.code || (x.code == y.code && le xs ys)

/-- The pieces of a text between the occurrences of a symbol: one piece more than occurrences. -/
def splitOn (sep : Symbol) : Text → List Text
  | [] => [[]]
  | x :: xs =>
    if x = sep then [] :: splitOn sep xs
    else
      match splitOn sep xs with
      | [] => [[x]]
      | piece :: rest => (x :: piece) :: rest

/-- The parts before and after the first occurrence of a symbol, where there is one. -/
def cut? (sep : Symbol) : Text → Option (Text × Text)
  | [] => none
  | x :: xs => if x = sep then some ([], xs) else (cut? sep xs).map fun (a, b) => (x :: a, b)

/-- Texts joined with a separator between neighbours. -/
def join (sep : Text) (ts : List Text) : Text := (ts.intersperse sep).flatten

/-- Drops a final run of symbols that satisfy a test. -/
def dropTail (p : Symbol → Bool) (t : Text) : Text := (t.reverse.dropWhile p).reverse

/-- Drops what satisfies a test at both ends. -/
def trim (p : Symbol → Bool) (t : Text) : Text := dropTail p (t.dropWhile p)

/-- The rest of a text after a given beginning. -/
def after? (t start : Text) : Option Text :=
  if start.isPrefixOf t then some (t.drop start.length) else none

/-- ASCII capitals made small. -/
def lowerAscii (t : Text) : Text :=
  t.map fun
    | .char c => .char c.toLower
    | .lone i => .lone i

/-- ASCII small letters made capitals. -/
def upperAscii (t : Text) : Text :=
  t.map fun
    | .char c => .char c.toUpper
    | .lone i => .lone i

/-- Padded on the right with spaces up to a width. -/
def padRight (width : Nat) (t : Text) : Text := t ++ List.replicate (width - t.length) (.char ' ')

end Text

end PushButton
