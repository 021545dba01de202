import Mathlib.Algebra.Group.Nat.Defs
import PushButton.Data.Calendar

/-!
# Moments are told apart by how they are written

The calendar gives every day a date of its own: the number of a day can be computed from its year,
month and day. So two moments that are written alike without separators are the same, since all
parts but the year are written with a fixed number of digits.
-/

namespace PushButton

/-! ## Dates -/

namespace Date

/-- The number of a day, counted from the first of January 1970. Years begin in March here, so that
a day that is inserted is the last one of its year, and four hundred years make an era. -/
def number (d : Date) : Nat :=
  let year := d.year - (if d.month ≤ 2 then 1 else 0)
  let month := if d.month ≤ 2 then d.month + 9 else d.month - 3
  let dayOfYear := (153 * month + 2) / 5 + (d.day - 1)
  let yearOfEra := year % 400
  year / 400 * 146097 + (365 * yearOfEra + yearOfEra / 4 - yearOfEra / 100 + dayOfYear) - 719468

/-- The year of an era in which a day of the era lies. -/
def yearOfEra (dayOfEra : Nat) : Nat :=
  (dayOfEra - dayOfEra / 1460 + dayOfEra / 36524 - dayOfEra / 146096) / 365

section Eras

variable {dayOfEra : Nat}

/-- Four years have at least 1460 days. -/
theorem yearOfEra_div_four (hday : dayOfEra < 146097) :
    yearOfEra dayOfEra / 4 ≤ dayOfEra / 1460 ∧
      dayOfEra / 1460 ≤ yearOfEra dayOfEra / 4 + 1 := by
  unfold yearOfEra
  constructor
  · omega
  · omega

/-- A hundred years have 36524 days, and the last day of an era makes one more. -/
theorem yearOfEra_div_hundred (hday : dayOfEra < 146097) :
    yearOfEra dayOfEra / 100 + dayOfEra / 146096 = dayOfEra / 36524 := by
  have hcentury : dayOfEra / 36524 = 0 ∨ dayOfEra / 36524 = 1 ∨ dayOfEra / 36524 = 2 ∨
      dayOfEra / 36524 = 3 ∨ dayOfEra / 36524 = 4 := by omega
  generalize hyear : yearOfEra dayOfEra = year
  unfold yearOfEra at hyear
  obtain hcentury | hcentury | hcentury | hcentury | hcentury := hcentury
  all_goals
    rw [hcentury] at hyear ⊢
    refine Nat.le_antisymm ?_ ?_
    · omega
    · omega

/-- An era has four hundred years. -/
theorem yearOfEra_lt (hday : dayOfEra < 146097) : yearOfEra dayOfEra < 400 := by
  unfold yearOfEra
  omega

/-- A day of an era lies in its year. -/
theorem le_dayOfEra (hday : dayOfEra < 146097) :
    365 * yearOfEra dayOfEra + yearOfEra dayOfEra / 4 - yearOfEra dayOfEra / 100 ≤ dayOfEra ∧
      dayOfEra - (365 * yearOfEra dayOfEra + yearOfEra dayOfEra / 4 - yearOfEra dayOfEra / 100) ≤
        366 := by
  obtain ⟨hlow, hhigh⟩ := yearOfEra_div_four hday
  have hcentury := yearOfEra_div_hundred hday
  generalize hyear : yearOfEra dayOfEra = year at hlow hhigh hcentury ⊢
  unfold yearOfEra at hyear
  constructor
  · omega
  · omega

end Eras

/-- The date of a day of an era. -/
theorem ofDays_eq {days era dayOfEra : Nat} (hdays : days + 719468 = 146097 * era + dayOfEra)
    (hday : dayOfEra < 146097) :
    let year := yearOfEra dayOfEra
    let dayOfYear := dayOfEra - (365 * year + year / 4 - year / 100)
    let m := (5 * dayOfYear + 2) / 153
    let month := if m < 10 then m + 3 else m - 9
    ofDays days = ⟨year + era * 400 + (if month ≤ 2 then 1 else 0), month,
      dayOfYear - (153 * m + 2) / 5 + 1⟩ := by
  have hera : (days + 719468) / 146097 = era := by omega
  have hmod : (days + 719468) % 146097 = dayOfEra := by omega
  unfold ofDays yearOfEra
  simp only [hera, hmod]

/-- **The date of a day tells its number.** -/
theorem number_ofDays (days : Nat) : (ofDays days).number = days := by
  obtain ⟨era, dayOfEra, hdays, hday⟩ :
      ∃ era dayOfEra, days + 719468 = 146097 * era + dayOfEra ∧ dayOfEra < 146097 :=
    ⟨_, _, (Nat.div_add_mod _ 146097).symm, Nat.mod_lt _ (by decide)⟩
  have hyear := yearOfEra_lt hday
  obtain ⟨hlow, hhigh⟩ := le_dayOfEra hday
  rw [ofDays_eq hdays hday]
  generalize yearOfEra dayOfEra = year at hyear hlow hhigh ⊢
  generalize hdayOfYear : dayOfEra - (365 * year + year / 4 - year / 100) = dayOfYear at hhigh ⊢
  generalize hm : (5 * dayOfYear + 2) / 153 = m
  have hmonth : m ≤ 11 := by omega
  have hstart : (153 * m + 2) / 5 ≤ dayOfYear := by omega
  unfold number
  dsimp only
  by_cases hlate : m < 10
  · rw [if_pos hlate]
    have hnot : ¬ m + 3 ≤ 2 := by omega
    rw [if_neg hnot, if_neg hnot]
    have hyearEq : (year + era * 400 + 0 - 0) / 400 = era := by omega
    have hyearMod : (year + era * 400 + 0 - 0) % 400 = year := by omega
    rw [hyearEq, hyearMod]
    omega
  · rw [if_neg hlate]
    have hearly : m - 9 ≤ 2 := by omega
    rw [if_pos hearly, if_pos hearly]
    have hyearEq : (year + era * 400 + 1 - 1) / 400 = era := by omega
    have hyearMod : (year + era * 400 + 1 - 1) % 400 = year := by omega
    rw [hyearEq, hyearMod]
    omega

/-- No two days have the same date. -/
theorem ofDays_injective : Function.Injective ofDays :=
  Function.LeftInverse.injective (g := number) number_ofDays

/-- The months and the days of a date are counted from one and have two digits at most. -/
theorem ofDays_lt (days : Nat) : (ofDays days).month < 100 ∧ (ofDays days).day < 100 := by
  obtain ⟨era, dayOfEra, hdays, hday⟩ :
      ∃ era dayOfEra, days + 719468 = 146097 * era + dayOfEra ∧ dayOfEra < 146097 :=
    ⟨_, _, (Nat.div_add_mod _ 146097).symm, Nat.mod_lt _ (by decide)⟩
  obtain ⟨-, hhigh⟩ := le_dayOfEra hday
  rw [ofDays_eq hdays hday]
  generalize dayOfEra - (365 * yearOfEra dayOfEra + yearOfEra dayOfEra / 4 -
    yearOfEra dayOfEra / 100) = dayOfYear at hhigh ⊢
  dsimp only
  constructor
  · split
    · omega
    · omega
  · omega

end Date

/-! ## Numbers with a fixed width -/

namespace Text

/-- A number with zeros in front is written in digits. -/
theorem padded_eq (width n : Nat) : padded width n =
    (List.replicate (width - (Nat.toDigits 10 n).length) '0' ++ Nat.toDigits 10 n).map .char := by
  unfold padded ofNat
  dsimp only
  rw [List.map_append, List.map_replicate, List.length_map]

/-- Zeros in front do not change a number. -/
theorem padded_injective (width : Nat) : Function.Injective (padded width) := by
  have hvalue (n : Nat) : Nat.ofDigitChars 10
      (List.replicate (width - (Nat.toDigits 10 n).length) '0' ++ Nat.toDigits 10 n) 0 = n := by
    rw [Nat.ofDigitChars_append, Nat.ofDigitChars_replicate_zero, Nat.mul_zero,
      Nat.ofDigitChars_ten_toDigits]
  intro n n' heq
  rw [padded_eq, padded_eq] at heq
  have hdigits := (List.map_inj_right fun _ _ => Symbol.char.inj).mp heq
  rw [← hvalue n, ← hvalue n', hdigits]

/-- A number that has no more digits than the width is written with that many. -/
theorem length_padded {width n : Nat} (hwidth : 0 < width) (hn : n < 10 ^ width) :
    (padded width n).length = width := by
  have hlength : (Nat.toDigits 10 n).length ≤ width :=
    (Nat.length_toDigits_le_iff (by decide) hwidth).mpr hn
  rw [padded_eq, List.length_map, List.length_append, List.length_replicate]
  omega

end Text

/-! ## Moments -/

namespace Moment

/-- A moment whose parts, the year apart, fit into the digits with which they are written. -/
structure Fits (m : Moment) : Prop where
  /-- The month has two digits. -/
  month : m.date.month < 100
  /-- The day has two digits. -/
  day : m.date.day < 100
  /-- The hour has two digits. -/
  hour : m.hour < 100
  /-- The minute has two digits. -/
  minute : m.minute < 100
  /-- The second has two digits. -/
  second : m.second < 100
  /-- The microsecond has six digits. -/
  micro : m.micro < 1000000

/-- A moment that is so many microseconds after the beginning of 1970 fits. -/
theorem fits_ofMicros (us : Nat) : (ofMicros us).Fits := by
  obtain ⟨hmonth, hday⟩ := Date.ofDays_lt (us / 1000000 / 86400)
  refine ⟨hmonth, hday, ?_, ?_, ?_, ?_⟩
  all_goals
    unfold ofMicros
    dsimp only
    omega

/-- No two numbers of microseconds lead to the same day and time of day. -/
theorem ofMicros_injective : Function.Injective ofMicros := by
  intro us us' heq
  unfold ofMicros at heq
  obtain ⟨hdate, hhour, hminute, hsecond, hmicro, -⟩ := Moment.mk.inj heq
  have hdays := Date.ofDays_injective hdate
  omega

/-- **Moments are told apart by how they are written.** -/
theorem eq_of_compact {m m' : Moment} (hm : m.Fits) (hm' : m'.Fits)
    (heq : m.compact = m'.compact) (hoffset : m.offset = m'.offset) : m = m' := by
  have hlength {width n n' : Nat} (hwidth : 0 < width) (hn : n < 10 ^ width)
      (hn' : n' < 10 ^ width) : (Text.padded width n).length = (Text.padded width n').length := by
    rw [Text.length_padded hwidth hn, Text.length_padded hwidth hn']
  have htwo {n n' : Nat} (hn : n < 100) (hn' : n' < 100) :
      (Text.padded 2 n).length = (Text.padded 2 n').length := hlength (by decide) hn hn'
  unfold compact at heq
  obtain ⟨heq, -⟩ := List.append_inj' heq rfl
  obtain ⟨heq, hmicro⟩ := List.append_inj' heq (hlength (by decide) hm.micro hm'.micro)
  obtain ⟨heq, hsecond⟩ := List.append_inj' heq (htwo hm.second hm'.second)
  obtain ⟨heq, hminute⟩ := List.append_inj' heq (htwo hm.minute hm'.minute)
  obtain ⟨heq, hhour⟩ := List.append_inj' heq (htwo hm.hour hm'.hour)
  obtain ⟨heq, -⟩ := List.append_inj' heq rfl
  obtain ⟨heq, hday⟩ := List.append_inj' heq (htwo hm.day hm'.day)
  obtain ⟨hyear, hmonth⟩ := List.append_inj' heq (htwo hm.month hm'.month)
  obtain ⟨⟨year, month, day⟩, hour, minute, second, micro, offset⟩ := m
  obtain ⟨⟨year', month', day'⟩, hour', minute', second', micro', offset'⟩ := m'
  obtain rfl := Text.padded_injective 4 hyear
  obtain rfl := Text.padded_injective 2 hmonth
  obtain rfl := Text.padded_injective 2 hday
  obtain rfl := Text.padded_injective 2 hhour
  obtain rfl := Text.padded_injective 2 hminute
  obtain rfl := Text.padded_injective 2 hsecond
  obtain rfl := Text.padded_injective 6 hmicro
  obtain rfl : offset = offset' := hoffset
  rfl

/-- Moments are told apart by how they are written when they are given in microseconds. -/
theorem compact_ofMicros_injective : Function.Injective fun us => (ofMicros us).compact := by
  intro us us' heq
  exact ofMicros_injective (eq_of_compact (fits_ofMicros us) (fits_ofMicros us') heq rfl)

end Moment

end PushButton
