import Mathlib.Tactic.Common
import PushButton.Bytes.Utf8
import PushButton.Proofs.Results

/-!
# The UTF-8 form of a text is read back

A character has one to four bytes, and the decoder takes exactly these bytes off the front of what
it is given. It follows that a plain text has a UTF-8 form, and that its UTF-8 form stands for no
other text.
-/

namespace PushButton

namespace Utf8

/-- A number below 256 is the number of its byte. -/
theorem toNat_ofNat_of_lt {n : Nat} (h : n < 256) : (UInt8.ofNat n).toNat = n := by
  simp [Nat.mod_eq_of_lt h]

/-- The payload of a byte that continues a sequence is what was put into it. -/
theorem payload_ofNat (n : Nat) : payload (.ofNat (0x80 + n % 64)) = n % 64 := by
  rw [payload, toNat_ofNat_of_lt (by omega)]
  omega

/-- A byte that was made to continue a sequence continues one. -/
theorem isTail_ofNat (n : Nat) : isTail (.ofNat (0x80 + n % 64)) = true := by
  have h : (UInt8.ofNat (0x80 + n % 64)).toNat = 0x80 + n % 64 := toNat_ofNat_of_lt (by omega)
  simp only [isTail, Bool.and_eq_true, decide_eq_true_eq, UInt8.le_iff_toNat_le,
    UInt8.lt_iff_toNat_lt, h]
  constructor
  · simp
  · simp
    omega

/-- The number of a character is no half of a surrogate pair, and is at most `0x10FFFF`. -/
theorem char_toNat_bounds (c : Char) :
    (c.toNat < 0xD800 ∨ 0xDFFF < c.toNat) ∧ c.toNat < 0x110000 := by
  rcases c.valid with h | ⟨hlow, hhigh⟩
  · exact ⟨Or.inl h, Nat.lt_trans h (by decide)⟩
  · exact ⟨Or.inr hlow, hhigh⟩

/-- The second byte of a character of three bytes fits the first: no shorter sequence would do,
and the character is no half of a surrogate pair. -/
theorem fitsThree_ofNat {n : Nat} (hlow : 0x800 ≤ n) (hhigh : n < 0x10000)
    (hplain : n < 0xD800 ∨ 0xDFFF < n) :
    fitsThree (.ofNat (0xE0 + n >>> 12)) (.ofNat (0x80 + n >>> 6 % 64)) = true := by
  have ha : (UInt8.ofNat (0xE0 + n >>> 12)).toNat = 0xE0 + n >>> 12 :=
    toNat_ofNat_of_lt (by omega)
  have hb : (UInt8.ofNat (0x80 + n >>> 6 % 64)).toNat = 0x80 + n >>> 6 % 64 :=
    toNat_ofNat_of_lt (by omega)
  rw [fitsThree, isTail_ofNat, Bool.true_and]
  split
  · next h =>
    rw [UInt8.lt_iff_toNat_lt, hb] at h
    rw [bne_iff_ne, Ne, ← UInt8.toNat_inj, ha]
    simp at h ⊢
    omega
  · next h =>
    rw [UInt8.lt_iff_toNat_lt, hb] at h
    rw [bne_iff_ne, Ne, ← UInt8.toNat_inj, ha]
    simp at h ⊢
    omega

/-- The second byte of a character of four bytes fits the first. -/
theorem fitsFour_ofNat {n : Nat} (hlow : 0x10000 ≤ n) (hhigh : n < 0x110000) :
    fitsFour (.ofNat (0xF0 + n >>> 18)) (.ofNat (0x80 + n >>> 12 % 64)) = true := by
  have ha : (UInt8.ofNat (0xF0 + n >>> 18)).toNat = 0xF0 + n >>> 18 :=
    toNat_ofNat_of_lt (by omega)
  have hb : (UInt8.ofNat (0x80 + n >>> 12 % 64)).toNat = 0x80 + n >>> 12 % 64 :=
    toNat_ofNat_of_lt (by omega)
  rw [fitsFour, isTail_ofNat, Bool.true_and]
  split
  · next h =>
    rw [UInt8.lt_iff_toNat_lt, hb] at h
    rw [bne_iff_ne, Ne, ← UInt8.toNat_inj, ha]
    simp at h ⊢
    omega
  · next h =>
    rw [UInt8.lt_iff_toNat_lt, hb] at h
    rw [bne_iff_ne, Ne, ← UInt8.toNat_inj, ha]
    simp at h ⊢
    omega

/-- The decoder takes the bytes of a character off the front of what it is given. The four cases
are the four lengths; in each of them the tests of the decoder are tests of the number of the
first byte. -/
theorem decodeFrom_encodeChar (c : Char) (position : Nat) (rest : Bytes) :
    decodeFrom position (encodeChar c ++ rest) =
      (decodeFrom (position + (encodeChar c).length) rest).map (.char c :: ·) := by
  obtain ⟨hplain, htop⟩ := char_toNat_bounds c
  by_cases h1 : c.toNat < 0x80
  · have ha : (UInt8.ofNat c.toNat).toNat = c.toNat := toNat_ofNat_of_lt (by omega)
    have hfirst : UInt8.ofNat c.toNat < 0x80 := by
      rw [UInt8.lt_iff_toNat_lt, ha]
      exact h1
    simp only [encodeChar, if_pos h1, List.singleton_append, List.length_singleton]
    rw [decodeFrom.eq_def]
    simp only [if_pos hfirst, ha, Char.ofNat_toNat]
  by_cases h2 : c.toNat < 0x800
  · have ha : (UInt8.ofNat (0xC0 + c.toNat >>> 6)).toNat = 0xC0 + c.toNat >>> 6 :=
      toNat_ofNat_of_lt (by omega)
    have hnumber : (0xC0 + c.toNat >>> 6) % 32 * 64 + c.toNat >>> 0 % 64 = c.toNat := by omega
    simp only [encodeChar, if_neg h1, if_pos h2, List.cons_append, List.nil_append,
      List.length_cons, List.length_nil]
    rw [decodeFrom.eq_def]
    simp only [UInt8.lt_iff_toNat_lt, UInt8.le_iff_toNat_le, isTail_ofNat, payload_ofNat, ha,
      hnumber, Char.ofNat_toNat]
    rw [if_neg (by simp; omega), if_neg (by simp; omega), if_pos (by simp; omega)]
    simp
  by_cases h3 : c.toNat < 0x10000
  · have ha : (UInt8.ofNat (0xE0 + c.toNat >>> 12)).toNat = 0xE0 + c.toNat >>> 12 :=
      toNat_ofNat_of_lt (by omega)
    have hfits := fitsThree_ofNat (n := c.toNat) (by omega) h3 hplain
    have hnumber : ((0xE0 + c.toNat >>> 12) % 16 * 64 + c.toNat >>> 6 % 64) * 64 +
        c.toNat >>> 0 % 64 = c.toNat := by omega
    simp only [encodeChar, if_neg h1, if_neg h2, if_pos h3, List.cons_append, List.nil_append,
      List.length_cons, List.length_nil]
    rw [decodeFrom.eq_def]
    simp only [UInt8.lt_iff_toNat_lt, UInt8.le_iff_toNat_le, isTail_ofNat, payload_ofNat, ha,
      hfits, hnumber, Char.ofNat_toNat]
    rw [if_neg (by simp; omega), if_neg (by simp; omega), if_neg (by simp),
      if_pos (by simp; omega)]
    simp
  · have ha : (UInt8.ofNat (0xF0 + c.toNat >>> 18)).toNat = 0xF0 + c.toNat >>> 18 :=
      toNat_ofNat_of_lt (by omega)
    have hfits := fitsFour_ofNat (n := c.toNat) (by omega) htop
    have hnumber : (((0xF0 + c.toNat >>> 18) % 8 * 64 + c.toNat >>> 12 % 64) * 64 +
        c.toNat >>> 6 % 64) * 64 + c.toNat >>> 0 % 64 = c.toNat := by omega
    simp only [encodeChar, if_neg h1, if_neg h2, if_neg h3, List.cons_append, List.nil_append,
      List.length_cons, List.length_nil]
    rw [decodeFrom.eq_def]
    simp only [UInt8.lt_iff_toNat_lt, UInt8.le_iff_toNat_le, isTail_ofNat, payload_ofNat, ha,
      hfits, hnumber, Char.ofNat_toNat]
    rw [if_neg (by simp; omega), if_neg (by simp; omega), if_neg (by simp; omega),
      if_neg (by simp)]
    simp

/-- What was encoded is decoded, wherever both stand. -/
theorem decodeFrom_encodeFrom {t : Text} {bytes : Bytes} {p : Nat}
    (h : encodeFrom p t = .ok bytes) (q : Nat) : decodeFrom q bytes = .ok t := by
  induction t generalizing bytes p q with
  | nil =>
    cases h
    rfl
  | cons s rest ih =>
    cases s with
    | lone i => simp [encodeFrom] at h
    | char c =>
      cases hrest : encodeFrom (p + 1) rest with
      | error e => simp [encodeFrom, hrest, Except.map] at h
      | ok more =>
        have hbytes : encodeChar c ++ more = bytes := by
          simpa [encodeFrom, hrest, Except.map] using h
        rw [← hbytes, decodeFrom_encodeChar, ih hrest]
        rfl

/-- The UTF-8 form of a text is read back as the text. -/
theorem decode_of_encode {t : Text} {bytes : Bytes} (h : encode t = .ok bytes) :
    decode bytes = .ok t := decodeFrom_encodeFrom h 0

/-- A plain text has a UTF-8 form, wherever it stands. -/
theorem exists_encodeFrom {t : Text} (h : t.IsPlain) (p : Nat) :
    ∃ bytes, encodeFrom p t = .ok bytes := by
  induction t generalizing p with
  | nil => exact ⟨[], rfl⟩
  | cons s rest ih =>
    cases s with
    | lone i => exact absurd (h (.lone i) (by simp)) (by simp [Symbol.isChar])
    | char c =>
      obtain ⟨bytes, hbytes⟩ := ih (fun x hx => h x (by simp [hx])) (p + 1)
      exact ⟨encodeChar c ++ bytes, by simp [encodeFrom, hbytes, Except.map]⟩

/-- Only a plain text has a UTF-8 form. -/
theorem isPlain_of_encodeFrom {t : Text} {bytes : Bytes} {p : Nat}
    (h : encodeFrom p t = .ok bytes) : t.IsPlain := by
  induction t generalizing p bytes with
  | nil => exact fun _ hs => absurd hs List.not_mem_nil
  | cons s rest ih =>
    cases s with
    | lone i => cases h
    | char c =>
      obtain ⟨more, hmore, -⟩ := exists_of_map_eq_ok h
      intro s hs
      rcases List.mem_cons.mp hs with rfl | hs
      · rfl
      · exact ih hmore s hs

/-- The UTF-8 form of a text does not depend on where the text stands. -/
theorem encodeFrom_eq_ok {t : Text} {bytes : Bytes} {p : Nat} (h : encodeFrom p t = .ok bytes)
    (q : Nat) : encodeFrom q t = .ok bytes := by
  induction t generalizing bytes p q with
  | nil => exact h
  | cons s rest ih =>
    cases s with
    | lone i => cases h
    | char c =>
      obtain ⟨more, hmore, rfl⟩ := exists_of_map_eq_ok h
      rw [encodeFrom, ih hmore (q + 1)]
      rfl

/-- The UTF-8 forms of two texts stand one behind the other. -/
theorem encode_append {t u : Text} {bytes more : Bytes} (ht : encode t = .ok bytes)
    (hu : encode u = .ok more) : encode (t ++ u) = .ok (bytes ++ more) := by
  unfold encode at *
  generalize 0 = p at ht ⊢
  induction t generalizing bytes p with
  | nil =>
    cases ht
    exact encodeFrom_eq_ok hu p
  | cons s rest ih =>
    cases s with
    | lone i => cases ht
    | char c =>
      obtain ⟨after, hafter, rfl⟩ := exists_of_map_eq_ok ht
      rw [List.cons_append, encodeFrom, ih _ hafter]
      simp [Except.map]

/-- A plain text has a UTF-8 form, from which it is read back. -/
theorem exists_encode_decode {t : Text} (h : t.IsPlain) :
    ∃ bytes, encode t = .ok bytes ∧ decode bytes = .ok t := by
  obtain ⟨bytes, hbytes⟩ := exists_encodeFrom h 0
  exact ⟨bytes, hbytes, decode_of_encode hbytes⟩

end Utf8

end PushButton
