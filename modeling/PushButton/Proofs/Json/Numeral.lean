import Mathlib.Tactic.Common
import PushButton.Json.Reader

/-!
# The numeral of an integer is read back

An integer is written in decimal without leading zeros. The reader takes exactly these digits off
the front of what it is given, as long as nothing follows that could belong to a number.
-/

namespace PushButton

namespace Symbol

/-- A decimal digit stands between `0` and `9`. -/
theorem isDigit_bounds {c : Char} (h : c.isDigit = true) : '0' ≤ c ∧ c ≤ '9' := by
  simp only [Char.isDigit, Bool.and_eq_true, decide_eq_true_eq] at h
  exact h

/-- A decimal digit is a digit of a text. -/
theorem isDigit_char {c : Char} (h : c.isDigit = true) : (char c).isDigit = true := by
  simpa [isDigit, within] using isDigit_bounds h

/-- The value of a digit. -/
theorem digit?_char {c : Char} (h : c.isDigit = true) :
    (char c).digit? = some (c.toNat - '0'.toNat) := by
  rw [digit?, if_pos (isDigit_bounds h)]

end Symbol

namespace Text

/-- The numeral of zero is one zero, and no other numeral begins with a zero. -/
theorem ofNat_eq_cons (n : Nat) : ∃ c cs, Nat.toDigits 10 n = c :: cs ∧ (0 < n → c ≠ '0') := by
  induction n using Nat.strongRecOn with
  | _ n ih =>
    rw [Nat.toDigits_eq_if (by decide)]
    split
    · next h =>
      refine ⟨n.digitChar, [], rfl, fun hn => ?_⟩
      have hdigit : ∀ m < 10, 0 < m → m.digitChar ≠ '0' := by decide
      exact hdigit n h hn
    · next h =>
      obtain ⟨c, cs, hcs, hc⟩ := ih (n / 10) (by omega)
      exact ⟨c, cs ++ [(n % 10).digitChar], by rw [hcs]; rfl, fun _ => hc (by omega)⟩

/-- A number in decimal consists of digits. -/
theorem mem_ofNat {n : Nat} {s : Symbol} (hs : s ∈ ofNat n) :
    ∃ c : Char, s = .char c ∧ 0x30 ≤ c.toNat ∧ c.toNat < 0x3A := by
  obtain ⟨c, hc, rfl⟩ := List.mem_map.mp hs
  obtain ⟨hlow, hhigh⟩ :=
    Symbol.isDigit_bounds (Nat.isDigit_of_mem_toDigits (by decide) (by decide) hc)
  exact ⟨c, rfl, hlow, Nat.lt_succ_of_le hhigh⟩

end Text

namespace Json

/-- Nothing at the beginning of a text could belong to a number in front of it. -/
def EndsNumber (t : Text) : Prop :=
  ∀ s ∈ t.head?, s.isDigit = false ∧ s ≠ .char '.' ∧ s ≠ .char 'e' ∧ s ≠ .char 'E'

/-- The digits in front of a text that begins with no digit are all taken. -/
theorem digitsOf_append {cs : List Char} (hcs : ∀ c ∈ cs, c.isDigit = true) {rest : Text}
    (hrest : EndsNumber rest) :
    digitsOf (cs.map .char ++ rest) = (cs.map fun c => c.toNat - '0'.toNat, rest) := by
  have htake : (cs.map Symbol.char ++ rest).takeWhile Symbol.isDigit = cs.map .char ∧
      (cs.map Symbol.char ++ rest).dropWhile Symbol.isDigit = rest := by
    induction cs with
    | nil =>
      cases rest with
      | nil => exact ⟨rfl, rfl⟩
      | cons s more =>
        have hs := (hrest s rfl).1
        simp [hs]
    | cons c cs ih =>
      have hc := Symbol.isDigit_char (hcs c (by simp))
      simpa [hc] using ih fun x hx => hcs x (by simp [hx])
  have hvalues : (cs.map Symbol.char).filterMap Symbol.digit? =
      cs.map fun c => c.toNat - '0'.toNat := by
    induction cs with
    | nil => rfl
    | cons c cs ih =>
      have hmore := ih (fun x hx => hcs x (by simp [hx])) ?_
      · simpa [Symbol.digit?_char (hcs c (by simp))] using hmore
      · have hc := Symbol.isDigit_char (hcs c (by simp))
        simpa [hc] using htake
  rw [digitsOf, htake.1, htake.2, hvalues]

/-- The digits of a numeral stand for its number. -/
theorem ofDigits_toDigits (n : Nat) :
    Text.ofDigits 10 ((Nat.toDigits 10 n).map fun c => c.toNat - '0'.toNat) = n := by
  have h := Nat.ofDigitChars_ten_toDigits (n := n)
  rw [Nat.ofDigitChars_eq_foldl] at h
  rw [Text.ofDigits, List.foldl_map]
  exact h

/-- The part of a number in front of its point is a numeral. -/
theorem wholeOf_ofNat (n : Nat) {rest : Text} (hrest : EndsNumber rest) :
    wholeOf (Text.ofNat n ++ rest) =
      some ((Nat.toDigits 10 n).map (fun c => c.toNat - '0'.toNat), rest) := by
  have hdigits : ∀ c ∈ Nat.toDigits 10 n, c.isDigit = true := fun c hc =>
    Nat.isDigit_of_mem_toDigits (by decide) (by decide) hc
  rw [Text.ofNat]
  rcases Nat.eq_zero_or_pos n with rfl | hn
  · rfl
  · obtain ⟨c, cs, hcs, hc⟩ := Text.ofNat_eq_cons n
    rw [← digitsOf_append hdigits hrest, hcs]
    have hdigit := Symbol.isDigit_char (hdigits c (by simp [hcs]))
    have hzero : Symbol.char c ≠ .char '0' := fun h => hc hn (Symbol.char.inj h)
    rw [List.map_cons, List.cons_append, wholeOf.eq_def]
    split
    · next h => exact absurd (List.cons.inj h).1 hzero
    · next h =>
      cases h
      rw [if_pos hdigit]
    · next h => simp at h

/-- Where a number ends there is no fraction and no exponent. -/
theorem fractionOf_exponentOf_eq_none {rest : Text} (hrest : EndsNumber rest) :
    fractionOf rest = none ∧ exponentOf rest = none := by
  cases rest with
  | nil => exact ⟨rfl, rfl⟩
  | cons s more =>
    obtain ⟨-, hpoint, hsmall, hlarge⟩ := hrest s rfl
    constructor
    · rw [fractionOf.eq_def]
      split
      · next h => exact absurd (List.cons.inj h).1 hpoint
      · rfl
    · simp [exponentOf, hsmall, hlarge]

/-- The numeral of a natural number begins with no sign. -/
theorem ofNat_ne_minus (n : Nat) (rest more : Text) :
    Text.ofNat n ++ rest ≠ .char '-' :: more := by
  obtain ⟨c, cs, hcs, -⟩ := Text.ofNat_eq_cons n
  have hdigit : c.isDigit = true :=
    Nat.isDigit_of_mem_toDigits (b := 10) (n := n) (by decide) (by decide) (by simp [hcs])
  intro h
  rw [Text.ofNat, hcs] at h
  have hc : c = '-' := Symbol.char.inj (List.cons.inj h).1
  rw [hc] at hdigit
  exact absurd hdigit (by decide)

/-- An integer is read back, or refused when it has too many digits. -/
theorem readNumber_ofInt_eq (n : Int) {rest : Text} (hrest : EndsNumber rest) :
    readNumber (Text.ofInt n ++ rest) =
      if Text.maxDigits < (Text.ofNat n.natAbs).length then
        .error ⟨.size (Text.ofNat n.natAbs).length, (Text.ofInt n ++ rest).length⟩
      else .ok (.int n, rest) := by
  obtain ⟨hfraction, hexponent⟩ := fractionOf_exponentOf_eq_none hrest
  have hlength (m : Nat) : ((Nat.toDigits 10 m).map fun c => c.toNat - '0'.toNat).length =
      (Text.ofNat m).length := by simp [Text.ofNat]
  cases n with
  | ofNat m =>
    rw [Text.ofInt, readNumber.eq_2 _ (ofNat_ne_minus m rest), wholeOf_ofNat m hrest]
    simp only [hfraction, hexponent, Option.getD_none, Option.isNone_none, Bool.and_true, if_true,
      hlength, ofDigits_toDigits, Bool.false_eq_true, if_false]
    rfl
  | negSucc m =>
    rw [Text.ofInt, List.cons_append, readNumber.eq_1, wholeOf_ofNat (m + 1) hrest]
    simp only [hfraction, hexponent, Option.getD_none, Option.isNone_none, Bool.and_true, if_true,
      hlength, ofDigits_toDigits]
    rfl

/-- An integer that has not too many digits is read back. -/
theorem readNumber_ofInt {n : Int} (hsize : (Text.ofNat n.natAbs).length ≤ Text.maxDigits)
    {rest : Text} (hrest : EndsNumber rest) :
    readNumber (Text.ofInt n ++ rest) = .ok (.int n, rest) := by
  rw [readNumber_ofInt_eq n hrest, if_neg (Nat.not_lt.mpr hsize)]

end Json

end PushButton
