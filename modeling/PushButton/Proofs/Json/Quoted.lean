import Mathlib.Tactic.Common
import PushButton.Json.Reader
import PushButton.Json.Writer

/-!
# Quoted texts are read back

Between double quotes every symbol stands for itself or is escaped. The reader takes the written
form of a symbol off the front of what it is given; only the escape of a control character needs
that something follows it, and the closing quote always does.
-/

namespace PushButton

namespace Symbol

/-- A code point is given back by its number. -/
theorem ofCode_code (s : Symbol) : ofCode s.code = s := by
  cases s with
  | char c =>
    have hv : c.toNat < 0xD800 ∨ (0xDFFF < c.toNat ∧ c.toNat < 0x110000) := c.valid
    have h : ¬ (0xD800 ≤ c.toNat ∧ c.toNat < 0xE000) := by omega
    rw [code, ofCode, dif_neg h, Char.ofNat_toNat]
  | lone i =>
    have h : 0xD800 ≤ 0xD800 + i.val ∧ 0xD800 + i.val < 0xE000 := by omega
    rw [code, ofCode, dif_pos h]
    simp

end Symbol

namespace Json

/-- A symbol that needs no escape stands for itself. -/
theorem readQuoted_cons {s : Symbol} (hquote : s ≠ .char '"') (hslash : s ≠ .char '\\')
    (hcode : 0x20 ≤ s.code) (opening : Nat) (rest : Text) :
    readQuoted opening (s :: rest) = (readQuoted opening rest).map fun (t, r) => (s :: t, r) := by
  rw [readQuoted.eq_def]
  split
  · contradiction
  · simp_all
  · simp_all
  · simp_all
  · simp_all
  · simp_all
  · next h =>
    cases h
    rw [if_neg (by omega)]

/-- The four digits of a control character stand for its number. -/
theorem hex_four_of_lt : ∀ n < 0x20,
    Text.hex 4 n = [.char '0', .char '0', .char (n / 16).digitChar, .char (n % 16).digitChar] ∧
      hexFour? (.char '0') (.char '0') (.char (n / 16).digitChar) (.char (n % 16).digitChar) =
        some n := by
  decide

/-- The escape of a control character is read back, if anything follows it. -/
theorem readQuoted_codeEscape {s : Symbol} (hcode : s.code < 0x20) (opening : Nat) (x : Symbol)
    (rest : Text) :
    readQuoted opening (codeEscape s ++ x :: rest) =
      (readQuoted opening (x :: rest)).map fun (t, r) => (s :: t, r) := by
  obtain ⟨hhex, hfour⟩ := hex_four_of_lt s.code hcode
  have hhigh : s.isHighHalf = false := by
    simp only [Symbol.isHighHalf, Bool.and_eq_false_iff, decide_eq_false_iff_not]
    omega
  have hescape : codeEscape s ++ x :: rest = .char '\\' :: .char 'u' :: .char '0' :: .char '0' ::
      .char (s.code / 16).digitChar :: .char (s.code % 16).digitChar :: x :: rest := by
    rw [codeEscape, if_pos (by omega)]
    dsimp only
    rw [hhex]
    rfl
  rw [hescape, readQuoted.eq_3]
  simp only [hfour, Symbol.ofCode_code, hhigh, Bool.false_and, Bool.false_eq_true, if_false]

/-- The written form of a symbol is read back, if anything follows it. -/
theorem readQuoted_escaped (s : Symbol) (opening : Nat) (x : Symbol) (rest : Text) :
    readQuoted opening (escaped .full s ++ x :: rest) =
      (readQuoted opening (x :: rest)).map fun (t, r) => (s :: t, r) := by
  unfold escaped
  split
  iterate 7
    · rfl
  · next hquote hslash _ _ _ _ _ =>
    by_cases hcode : s.code < 0x20
    · rw [if_pos hcode]
      exact readQuoted_codeEscape hcode opening x rest
    · rw [if_neg hcode, if_neg (by simp)]
      exact readQuoted_cons hquote hslash (by omega) opening (x :: rest)

/-- A text between quotes is read back. -/
theorem readQuoted_flatMap (opening : Nat) (t rest : Text) :
    readQuoted opening (t.flatMap (escaped .full) ++ .char '"' :: rest) = .ok (t, rest) := by
  induction t with
  | nil => rfl
  | cons s t ih =>
    rw [List.flatMap_cons, List.append_assoc]
    -- The closing quote is what follows the last symbol.
    cases hmore : t.flatMap (escaped .full) ++ .char '"' :: rest with
    | nil => simp at hmore
    | cons x more =>
      rw [readQuoted_escaped, ← hmore, ih]
      rfl

end Json

end PushButton
