import Mathlib.Data.List.Basic
import Mathlib.Data.Char
import PushButton.Failure
import PushButton.Proofs.Results
import PushButton.Proofs.Yaml.Timestamp
import PushButton.Yaml.Document

/-!
# Scalars that fit their types

A scalar whose text fits its type is converted or is refused as invalid data. The type that a plain
scalar gets from its text fits, while a type that is written in front of a scalar need not.
-/

namespace PushButton

namespace Yaml

open Pattern

variable {t : Text}

/-- The flaw is a fault of the data. -/
def Flaw.isInvalid : Flaw → Bool
  | .malformed => true
  | .tooDeep => false
  | .conversion c => c.kind.isInvalid

/-- The computation gives a value or finds a fault of the data. -/
abbrev Fair {α : Type} (r : Except Flaw α) : Prop :=
  Gives (fun f => f.isInvalid = true) (fun _ => True) r

/-- The words for truth values, in small letters. -/
def truthWords : List Text := ["yes", "true", "on", "no", "false", "off"]

/-- The text can be read as a value of the type, if only as one that is out of its range. -/
def Tag.admits (tag : Tag) (t : Text) : Bool :=
  match tag with
  | .bool => truthWords.contains (Text.lowerAscii t)
  | .int => !([[], "-", "+"] : List Text).contains (t.filter (· ≠ .char '_'))
  | .float => t.any (· ≠ .char '_') && decide (t.count (.char ':') < maxGroups)
  | .timestamp => timestampPattern.accepts (dropLineFeed t)
  | _ => true

/-! ## Conversions -/

/-- A word for a truth value is one. -/
theorem exists_truth (h : Tag.bool.admits t = true) : ∃ b, truth t = .ok b := by
  have hword : Text.lowerAscii t ∈ truthWords := List.contains_iff_mem.mp h
  unfold truth
  simp only [truthWords, List.mem_cons, List.not_mem_nil, or_false] at hword
  obtain hw | hw | hw | hw | hw | hw := hword <;> rw [hw]
  · exact ⟨true, rfl⟩
  · exact ⟨true, rfl⟩
  · exact ⟨true, rfl⟩
  · exact ⟨false, rfl⟩
  · exact ⟨false, rfl⟩
  · exact ⟨false, rfl⟩

/-- The conversion gives a value or finds a fault of the data. -/
abbrev Converts {α : Type} (r : Except Conversion α) : Prop :=
  Gives (fun c => c.kind.isInvalid = true) (fun _ => True) r

/-- An integer of a base is invalid at worst. -/
theorem converts_integerOf (base : Nat) (t : Text) : Converts (integerOf base t) := by
  unfold integerOf
  split
  · rfl
  · dsimp only
    split
    · rfl
    · trivial

/-- A floating-point number is invalid at worst. -/
theorem converts_floatOf (t : Text) : Converts (floatOf t) := by
  unfold floatOf
  split
  · rfl
  · trivial

/-- A number that is more than a sign has something behind it. -/
theorem exists_signedNumber (h : Tag.int.admits t = true) :
    ∃ negative s rest, signedNumber t = .ok (negative, s :: rest) := by
  unfold Tag.admits at h
  unfold signedNumber
  revert h
  generalize t.filter (· ≠ .char '_') = digits
  intro h
  have hcontains : digits ∉ ([[], "-", "+"] : List Text) := by simpa using h
  simp only [List.mem_cons, List.not_mem_nil, or_false, not_or] at hcontains
  obtain ⟨hempty, hminus, hplus⟩ := hcontains
  split
  · exact absurd rfl hempty
  · rename_i rest
    cases rest with
    | nil => exact absurd rfl hminus
    | cons s rest => exact ⟨true, s, rest, rfl⟩
  · rename_i rest
    cases rest with
    | nil => exact absurd rfl hplus
    | cons s rest => exact ⟨false, s, rest, rfl⟩
  · obtain ⟨s, rest, rfl⟩ := List.exists_cons_of_ne_nil hempty
    exact ⟨false, s, rest, rfl⟩

/-- An integer is invalid at worst where its text fits. -/
theorem converts_integer (hadmits : Tag.int.admits t = true) : Converts (integer t) := by
  obtain ⟨negative, s, rest, hsigned⟩ := exists_signedNumber hadmits
  have hbase (base : Nat) (u : Text) : Converts (do
      let n ← integerOf base u
      pure (if negative then -n else n)) :=
    (converts_integerOf base u).bind fun _ _ => trivial
  unfold integer
  rw [hsigned]
  dsimp only [Bind.bind, Except.bind]
  split
  · contradiction
  · trivial
  · exact hbase 2 _
  · exact hbase 16 _
  · exact hbase 8 _
  · split
    · exact (Gives.mapM fun u _ => converts_integerOf 10 u).bind fun _ _ => trivial
    · exact hbase 10 _

/-- There are as many pieces as separators, and one more. -/
theorem length_splitOn (sep : Symbol) (t : Text) :
    (Text.splitOn sep t).length = t.count sep + 1 := by
  induction t with
  | nil => rfl
  | cons x xs ih =>
    unfold Text.splitOn
    by_cases hx : x = sep
    · rw [if_pos hx, List.length_cons, ih, hx, List.count_cons_self]
    · rw [if_neg hx, List.count_cons_of_ne hx]
      split
      · rename_i hnil
        rw [hnil] at ih
        cases ih
      · rename_i piece rest hcons
        rw [hcons] at ih
        exact ih

/-- Only a letter is made small. -/
theorem toLower_eq_iff {c m : Char} (hm : m.toNat < 65 ∨ 90 < m.toNat ∧ m.toNat < 97) :
    c.toLower = m ↔ c = m := by
  unfold Char.toLower
  split
  · rename_i hupper
    have hlow : 65 ≤ c.toNat := UInt32.le_iff_toNat_le.mp hupper.1
    have hhigh : c.toNat ≤ 90 := UInt32.le_iff_toNat_le.mp hupper.2
    constructor
    · intro h
      have hval : (c.toNat + 32) % 2 ^ 32 = m.toNat := congrArg Char.toNat h
      omega
    · rintro rfl
      omega
  · rfl

/-- Only letters are made small. -/
theorem count_lowerAscii {m : Char} (hm : m.toNat < 65 ∨ 90 < m.toNat ∧ m.toNat < 97) (t : Text) :
    (Text.lowerAscii t).count (.char m) = t.count (.char m) := by
  unfold Text.lowerAscii
  rw [List.count, List.countP_map]
  refine List.countP_congr fun s _ => ?_
  cases s with
  | lone i => simp
  | char c => simp [toLower_eq_iff hm]

/-- No symbol stands more often behind the sign of a number than in the number. -/
theorem count_of_signedNumber {negative : Bool} {digits : Text} (sep : Symbol)
    (h : signedNumber t = .ok (negative, digits)) : digits.count sep ≤ t.count sep := by
  have hfilter : (t.filter (· ≠ .char '_')).count sep ≤ t.count sep :=
    List.filter_sublist.count_le sep
  unfold signedNumber at h
  refine le_trans ?_ hfilter
  split at h <;> cases h
  · rename_i heq
    rw [heq]
    exact (List.sublist_cons_self _ _).count_le sep
  · rename_i heq
    rw [heq]
    exact (List.sublist_cons_self _ _).count_le sep
  · rfl

/-- A number of more than underscores has something left when it is made small. -/
theorem exists_signedNumber_lowerAscii (h : t.any (· ≠ .char '_') = true) :
    ∃ negative digits, signedNumber (Text.lowerAscii t) = .ok (negative, digits) := by
  have hne : (Text.lowerAscii t).filter (· ≠ .char '_') ≠ [] := by
    intro hempty
    have hgaps : ∀ s ∈ Text.lowerAscii t, Symbol.char '_' = s := fun s hs =>
      (by simpa using List.filter_eq_nil_iff.mp hempty s hs : s = .char '_').symm
    have hlength : t.count (.char '_') = t.length := by
      rw [← count_lowerAscii (by decide), List.count_eq_length.mpr hgaps]
      exact List.length_map _
    obtain ⟨s, hs, hgap⟩ := List.any_eq_true.mp h
    exact of_decide_eq_true hgap (List.count_eq_length.mp hlength s hs).symm
  unfold signedNumber
  split
  · contradiction
  · exact ⟨_, _, rfl⟩
  · exact ⟨_, _, rfl⟩
  · exact ⟨_, _, rfl⟩

/-- A floating-point number is invalid at worst where its text fits. -/
theorem converts_float (hadmits : Tag.float.admits t = true) : Converts (float t) := by
  obtain ⟨hany, hcolons⟩ := Bool.and_eq_true_iff.mp hadmits
  have hcolons : t.count (.char ':') < maxGroups := of_decide_eq_true hcolons
  obtain ⟨negative, digits, hsigned⟩ := exists_signedNumber_lowerAscii hany
  have hcount : digits.count (.char ':') < maxGroups := by
    have hle := count_of_signedNumber (.char ':') hsigned
    rw [count_lowerAscii (by decide)] at hle
    exact lt_of_le_of_lt hle hcolons
  unfold float
  rw [hsigned]
  dsimp only [Bind.bind, Except.bind]
  split
  · trivial
  · split
    · trivial
    · split
      · refine (Gives.mapM fun u _ => converts_floatOf u).bind fun groups hgroups => ?_
        -- there is one group more than colons
        have hlength : ¬ groups.length > maxGroups := by
          rw [hgroups.1, length_splitOn]
          omega
        rw [if_neg hlength]
        trivial
      · exact (converts_floatOf digits).bind fun _ _ => trivial

/-- A timestamp is invalid at worst where its text fits. -/
theorem converts_timestamp (hadmits : Tag.timestamp.admits t = true) :
    Converts (timestamp t) := by
  obtain ⟨stamp, hstamp⟩ := stamp_of_accepts hadmits
  unfold timestamp
  rw [hstamp]
  dsimp only
  split
  · rfl
  · trivial
  · trivial

/-- Bytes are malformed at worst. -/
theorem fair_binary (t : Text) : Fair (binary t) := by
  unfold binary
  split
  · rfl
  · split
    · rfl
    · trivial

/-- A scalar whose text fits its type gives a datum or is a fault of the data. -/
theorem fair_scalarDatum {tag : Tag} (hadmits : tag.admits t = true) :
    Fair (scalarDatum tag t) := by
  have hconverted {r : Except Conversion Datum} (hr : Converts r) :
      Fair (r.mapError .conversion) := by
    cases r with
    | error c => exact hr
    | ok d => trivial
  cases tag with
  | bool =>
    obtain ⟨b, hb⟩ := exists_truth hadmits
    unfold scalarDatum
    rw [hb]
    trivial
  | int => exact hconverted ((converts_integer hadmits).map fun _ _ => trivial)
  | float => exact hconverted ((converts_float hadmits).map fun _ _ => trivial)
  | timestamp => exact hconverted (converts_timestamp hadmits)
  | binary => exact (fair_binary t).map fun _ _ => trivial
  | null => trivial
  | text => trivial
  | orderedMap => rfl
  | pairs => rfl
  | set => rfl
  | sequence => rfl
  | mapping => rfl
  | merge => rfl
  | value => rfl
  | other => rfl

/-! ## Types that are found from texts -/

/-- A plain scalar has the type of a pattern that its text matches, or it is a text or missing. -/
theorem ofPlain_cases (t : Text) : Tag.ofPlain t = .null ∨ Tag.ofPlain t = .text ∨
    ∃ entry ∈ plainPatterns, entry.2.2 = Tag.ofPlain t ∧
      entry.2.1.accepts (dropLineFeed t) = true := by
  cases t with
  | nil => exact .inl rfl
  | cons first rest =>
    unfold Tag.ofPlain
    dsimp only
    cases hfind : plainPatterns.find? fun entry : String × Pattern × Tag =>
        entry.1.toList.any (fun c => first = .char c) &&
          entry.2.1.accepts (dropLineFeed (first :: rest)) with
    | none => exact .inr (.inl rfl)
    | some entry =>
      have hfits := List.find?_some hfind
      have hmem := List.mem_of_find?_eq_some hfind
      exact .inr (.inr ⟨entry, hmem, rfl, (Bool.and_eq_true_iff.mp hfits).2⟩)

/-- An integer has a digit. -/
theorem exists_digit_of_intPattern (h : intPattern.accepts t = true) :
    ∃ s ∈ t, s.isDigit = true := by
  have hpart {ps : List Pattern} {p : Pattern} (hrow : (row ps).accepts t = true) (hp : p ∈ ps)
      (hdigit : ∀ a, p.accepts a = true → ∃ s ∈ a, s.isDigit = true) :
      ∃ s ∈ t, s.isDigit = true := by
    obtain ⟨a, ha, hsubset⟩ := exists_part_of_row hrow hp
    obtain ⟨s, hs, hdigit⟩ := hdigit a ha
    exact ⟨s, hsubset hs, hdigit⟩
  have hzero (a : Text) (ha : (char '0').accepts a = true) : ∃ s ∈ a, s.isDigit = true :=
    ⟨.char '0', by rw [accepts_char.mp ha]; simp, by decide⟩
  have hword {w : String} (hw : ∃ s ∈ Text.ofString w, s.isDigit = true) (a : Text)
      (ha : (word w).accepts a = true) : ∃ s ∈ a, s.isDigit = true :=
    accepts_word.mp ha ▸ hw
  have hother (a : Text) (ha : (anyOf "123456789").accepts a = true) :
      ∃ s ∈ a, s.isDigit = true := by
    obtain ⟨c, hc, rfl⟩ := accepts_anyOf.mp ha
    have hall : "123456789".toList.all (fun c => (Symbol.char c).isDigit) = true := by decide
    exact ⟨.char c, by simp, List.all_eq_true.mp hall c hc⟩
  have hfirst (a : Text)
      (ha : ((char '0').or (row [anyOf "123456789", star digitOrGap])).accepts a = true) :
      ∃ s ∈ a, s.isDigit = true := by
    obtain ha | ha := accepts_or.mp ha
    · exact hzero a ha
    · obtain ⟨b, c, rfl, hb, -⟩ := accepts_row_cons.mp ha
      obtain ⟨s, hs, hdigit⟩ := hother b hb
      exact ⟨s, List.mem_append_left c hs, hdigit⟩
  obtain ⟨p, hp, haccepts⟩ := accepts_anyPattern.mp h
  simp only [List.mem_cons, List.not_mem_nil, or_false] at hp
  obtain rfl | rfl | rfl | rfl | rfl := hp
  · exact hpart haccepts (p := word "0b") (by simp) (hword (by decide))
  · exact hpart haccepts (p := char '0') (by simp) hzero
  · exact hpart haccepts (by simp) hfirst
  · exact hpart haccepts (p := word "0x") (by simp) (hword (by decide))
  · exact hpart haccepts (p := anyOf "123456789") (by simp) hother

/-- What has a digit is more than a sign. -/
theorem admits_of_intPattern (h : intPattern.accepts t = true) : Tag.int.admits t = true := by
  obtain ⟨s, hs, hdigit⟩ := exists_digit_of_intPattern h
  have hkept : s ∈ t.filter (· ≠ .char '_') := by
    refine List.mem_filter.mpr ⟨hs, decide_eq_true ?_⟩
    rintro rfl
    exact absurd hdigit (by decide)
  unfold Tag.admits
  dsimp only
  rw [Bool.not_eq_true', List.contains_eq_mem, decide_eq_false_iff_not]
  simp only [List.mem_cons, List.not_mem_nil, or_false, not_or]
  refine ⟨List.ne_nil_of_mem hkept, fun heq => ?_, fun heq => ?_⟩
  · rw [heq] at hkept
    cases List.mem_singleton.mp hkept
    exact absurd hdigit (by decide)
  · rw [heq] at hkept
    cases List.mem_singleton.mp hkept
    exact absurd hdigit (by decide)

/-- A floating-point number has a point. -/
theorem point_mem_of_floatPattern (h : floatPattern.accepts t = true) : .char '.' ∈ t := by
  obtain ⟨p, hp, haccepts⟩ := accepts_anyPattern.mp h
  have hpoint : ∃ a, (char '.').accepts a = true ∧ a ⊆ t := by
    simp only [List.mem_cons, List.not_mem_nil, or_false] at hp
    obtain rfl | rfl | rfl | rfl | rfl := hp <;> exact exists_part_of_row haccepts (by simp)
  obtain ⟨a, ha, hsubset⟩ := hpoint
  rw [accepts_char.mp ha] at hsubset
  exact hsubset (by simp)

/-- A truth value is one of the words for them. -/
theorem admits_of_boolPattern (h : boolPattern.accepts t = true) :
    Tag.bool.admits t = true := by
  obtain ⟨w, hw, rfl⟩ := accepts_words.mp h
  revert w
  decide

/-- The type that a plain scalar gets from its text fits the text. -/
theorem admits_ofPlain (hend : t.getLast? ≠ some (.char '\n'))
    (hcolons : Tag.ofPlain t = .float → t.count (.char ':') < maxGroups) :
    (Tag.ofPlain t).admits t = true := by
  have hwhole : dropLineFeed t = t := if_neg hend
  obtain hnull | htext | ⟨entry, hmem, htag, haccepts⟩ := ofPlain_cases t
  · rw [hnull]
    rfl
  · rw [htext]
    rfl
  · rw [← htag] at hcolons ⊢
    rw [hwhole] at haccepts
    simp only [plainPatterns, List.mem_cons, List.not_mem_nil, or_false] at hmem
    -- the patterns in the order in which they are tried
    obtain rfl | rfl | rfl | rfl | rfl | rfl | rfl | rfl := hmem
    · exact admits_of_boolPattern haccepts
    · have hpoint := point_mem_of_floatPattern haccepts
      refine Bool.and_eq_true_iff.mpr ⟨?_, decide_eq_true (hcolons rfl)⟩
      exact List.any_eq_true.mpr ⟨_, hpoint, by decide⟩
    · exact admits_of_intPattern haccepts
    · rfl
    · rfl
    · unfold Tag.admits
      rwa [hwhole]
    · rfl
    · rfl

end Yaml

end PushButton
