import PushButton.Proofs.Text.Pattern
import PushButton.Yaml.Timestamp

/-!
# Timestamps that are found by their pattern

The pattern by which a plain scalar is found to be a timestamp and the reader of its parts agree:
what matches the pattern has all the parts, though they can be out of their ranges. Each law below
goes from what a row of patterns matches to what is read from it and what the rest matches.
-/

namespace PushButton

namespace Yaml

open Pattern

variable {t : Text} {ps : List Pattern}

/-- The text does not begin with a digit. -/
def NoDigitAhead (t : Text) : Prop := ∀ s ∈ t.head?, s.isDigit = false

/-- Where no digit is ahead, a row of digits is empty. -/
theorem takeWhile_of_noDigitAhead (h : NoDigitAhead t) : t.takeWhile Symbol.isDigit = [] := by
  cases t with
  | nil => rfl
  | cons s rest => simp [h s rfl]

/-- Digits are read as a number when they are as many as there can be or no other digit follows. -/
theorem number?_append {least most : Nat} {ds rest : Text} (hds : ∀ s ∈ ds, s.isDigit = true)
    (hleast : least ≤ ds.length) (hmost : ds.length ≤ most)
    (hend : ds.length = most ∨ NoDigitAhead rest) :
    ∃ n, number? least most (ds ++ rest) = some (n, rest) := by
  have hcount : min most ((ds ++ rest).takeWhile Symbol.isDigit).length = ds.length := by
    rw [List.takeWhile_append_of_pos hds, List.length_append]
    obtain hfull | hrest := hend
    · omega
    · rw [takeWhile_of_noDigitAhead hrest]
      exact Nat.min_eq_right hmost
  refine ⟨Text.ofDigits 10 (ds.filterMap Symbol.digit?), ?_⟩
  unfold number? digitsUpTo
  dsimp only
  rw [hcount, List.take_left, List.drop_left, if_neg (by omega)]

/-- A row of digits in front of a row is read as a number. -/
theorem number?_of_row (least n : Nat) (hleast : least ≤ n)
    (h : (row (List.replicate n digit ++ ps)).accepts t = true) :
    ∃ k rest, number? least n t = some (k, rest) ∧ (row ps).accepts rest = true := by
  have hdigits : ∃ ds rest, t = ds ++ rest ∧ ds.length = n ∧ (∀ s ∈ ds, s.isDigit = true) ∧
      (row ps).accepts rest = true := by
    clear hleast
    induction n generalizing t with
    | zero => exact ⟨[], t, rfl, rfl, nofun, h⟩
    | succ n ih =>
      rw [List.replicate_succ, List.cons_append] at h
      obtain ⟨s, tail, rfl, hs, htail⟩ := accepts_row_one.mp h
      obtain ⟨ds, rest, rfl, hlength, hds, hrest⟩ := ih htail
      exact ⟨s :: ds, rest, rfl, by rw [List.length_cons, hlength],
        List.forall_mem_cons.mpr ⟨hs, hds⟩, hrest⟩
  obtain ⟨ds, rest, rfl, hlength, hds, hrest⟩ := hdigits
  obtain ⟨k, hk⟩ := number?_append hds (hlength ▸ hleast) (Nat.le_of_eq hlength) (.inl hlength)
  exact ⟨k, rest, hk, hrest⟩

/-- One or two digits in front of a row that begins with no digit are read as a number. -/
theorem number?_of_row_two (hps : ∀ rest, (row ps).accepts rest = true → NoDigitAhead rest)
    (h : (row (digit :: maybe digit :: ps)).accepts t = true) :
    ∃ k rest, number? 1 2 t = some (k, rest) ∧ (row ps).accepts rest = true := by
  obtain ⟨s, tail, rfl, hs, htail⟩ := accepts_row_one.mp h
  obtain ⟨second, rest, rfl, hsecond, hrest⟩ := accepts_row_cons.mp htail
  have hdigits : ∃ ds : Text, s :: second = ds ∧ (∀ x ∈ ds, x.isDigit = true) ∧
      1 ≤ ds.length ∧ ds.length ≤ 2 := by
    obtain rfl | hsecond := accepts_maybe.mp hsecond
    · exact ⟨[s], rfl, by simpa using hs, by simp, by simp⟩
    · obtain ⟨s', rfl, hs'⟩ := accepts_one.mp hsecond
      exact ⟨[s, s'], rfl, by simpa using ⟨hs, hs'⟩, by simp, by simp⟩
  obtain ⟨ds, rfl, hds, hleast, hmost⟩ := hdigits
  obtain ⟨k, hk⟩ := number?_append hds hleast hmost (.inr (hps rest hrest))
  exact ⟨k, rest, hk, hrest⟩

/-- A character in front of a row is passed over. -/
theorem behind?_of_row {c : Char} (h : (row (char c :: ps)).accepts t = true) :
    ∃ rest, behind? c t = some rest ∧ (row ps).accepts rest = true := by
  obtain ⟨rest, rfl, hrest⟩ := accepts_row_char.mp h
  exact ⟨rest, if_pos rfl, hrest⟩

/-- A row that begins with a character that is no digit begins with no digit. -/
theorem noDigitAhead_of_row_char {c : Char} (hc : (Symbol.char c).isDigit = false)
    (h : (row (char c :: ps)).accepts t = true) : NoDigitAhead t := by
  obtain ⟨rest, rfl, -⟩ := accepts_row_char.mp h
  intro s hs
  cases hs
  exact hc

/-- The pattern of an offset without the white space in front of it. -/
def offsetPattern : Pattern :=
  (char 'Z').or (row [anyOf "-+", digit, maybe digit, maybe (row [char ':', digit, digit])])

/-- The pattern of an offset, or nothing. -/
def maybeOffset : Pattern := maybe (row [star (anyOf " \t"), offsetPattern])

/-- The pattern of a time behind its day. -/
def timeParts : List Pattern :=
  [(anyOf "Tt").or (many (anyOf " \t")), digit, maybe digit, char ':', digit, digit, char ':',
    digit, digit, maybe (row [char '.', star digit]), maybeOffset]

/-- What begins an offset is no digit and no white space. -/
theorem head_of_offsetPattern (h : offsetPattern.accepts t = true) :
    ∃ c rest, t = .char c :: rest ∧ (c = 'Z' ∨ c = '-' ∨ c = '+') := by
  obtain h | h := accepts_or.mp h
  · exact ⟨'Z', [], accepts_char.mp h, .inl rfl⟩
  · obtain ⟨a, rest, rfl, ha, -⟩ := accepts_row_cons.mp h
    obtain ⟨c, hc, rfl⟩ := accepts_anyOf.mp ha
    exact ⟨c, rest, rfl, .inr (by simpa using hc)⟩

/-- White space in front of something else is dropped. -/
theorem dropBlanks_append {blanks rest : Text}
    (hblanks : (star (anyOf " \t")).accepts blanks = true)
    (hrest : ∀ s ∈ rest.head?, ¬ (s = .char ' ' ∨ s = .char '\t')) :
    dropBlanks (blanks ++ rest) = rest := by
  have hall := accepts_star_one.mp hblanks
  unfold dropBlanks
  rw [List.dropWhile_append_of_pos]
  · cases rest with
    | nil => rfl
    | cons s rest =>
      have hs := hrest s rfl
      rw [List.dropWhile_cons_of_neg (by simpa using hs)]
  · intro s hs
    simpa using hall s hs

/-- What matches the pattern of an offset begins with no digit and no point. -/
theorem head_of_maybeOffset (h : maybeOffset.accepts t = true) :
    ∀ s ∈ t.head?, s.isDigit = false ∧ s ≠ .char '.' := by
  obtain rfl | h := accepts_maybe.mp h
  · nofun
  obtain ⟨blanks, rest, rfl, hblanks, hrest⟩ := accepts_row_cons.mp h
  cases blanks with
  | nil =>
    obtain ⟨c, more, rfl, hc⟩ := head_of_offsetPattern (accepts_row_singleton.mp hrest)
    rintro s ⟨⟩
    obtain rfl | rfl | rfl := hc <;> decide
  | cons b blanks =>
    rintro s ⟨⟩
    have hb := accepts_star_one.mp hblanks b (by simp)
    have hblank : b = .char ' ' ∨ b = .char '\t' := by simpa using hb
    obtain rfl | rfl := hblank <;> decide

/-- The hours and minutes of an offset behind its sign. -/
theorem offset_parts_of_row
    (h : (row [digit, maybe digit, maybe (row [char ':', digit, digit])]).accepts t = true) :
    ∃ hours rest, number? 1 2 t = some (hours, rest) ∧
      (rest = [] ∨ ∃ more minutes, behind? ':' rest = some more ∧
        number? 2 2 more = some (minutes, [])) := by
  obtain ⟨hours, rest, hhours, hrest⟩ := number?_of_row_two (fun rest hrest => by
    obtain rfl | hrest := accepts_maybe.mp (accepts_row_singleton.mp hrest)
    · nofun
    · exact noDigitAhead_of_row_char (by decide) hrest) h
  refine ⟨hours, rest, hhours, ?_⟩
  obtain hnone | hminutes := accepts_maybe.mp (accepts_row_singleton.mp hrest)
  · exact .inl hnone
  · obtain ⟨more, hmore, hdigits⟩ := behind?_of_row hminutes
    obtain ⟨minutes, last, hlast, hend⟩ := number?_of_row 2 2 (by decide) hdigits
    obtain rfl := accepts_row_nil.mp hend
    exact .inr ⟨more, minutes, hmore, hlast⟩

/-- What matches the pattern of an offset is read as one. -/
theorem offset?_of_maybeOffset (h : maybeOffset.accepts t = true) :
    ∃ offset, offset? t = some offset := by
  obtain rfl | h := accepts_maybe.mp h
  · exact ⟨none, rfl⟩
  obtain ⟨blanks, u, rfl, hblanks, hrest⟩ := accepts_row_cons.mp h
  have hoffset := accepts_row_singleton.mp hrest
  obtain ⟨c, more, hu, hc⟩ := head_of_offsetPattern hoffset
  have hdropped : dropBlanks (blanks ++ u) = u := by
    refine dropBlanks_append hblanks fun s hs => ?_
    subst hu
    cases hs
    obtain rfl | rfl | rfl := hc <;> decide
  unfold offset?
  rw [hdropped]
  obtain hz | hsigned := accepts_or.mp hoffset
  · rw [accepts_char.mp hz]
    exact ⟨_, rfl⟩
  · obtain ⟨sign, parts, rfl, hsign, hparts⟩ := accepts_row_cons.mp hsigned
    obtain ⟨x, hx, rfl⟩ := accepts_anyOf.mp hsign
    obtain ⟨hours, rest, hhours, hminutes⟩ := offset_parts_of_row hparts
    have hx : x = '-' ∨ x = '+' := by simpa using hx
    obtain rfl | ⟨more, minutes, hmore, hlast⟩ := hminutes
    · obtain rfl | rfl := hx <;> simp [hhours]
    · cases rest with
      | nil => cases hmore
      | cons s rest => obtain rfl | rfl := hx <;> simp [hhours, hmore, hlast]

/-- What matches a fraction and an offset is read as a fraction, and an offset is left. -/
theorem fraction_of_row
    (h : (row [maybe (row [char '.', star digit]), maybeOffset]).accepts t = true) :
    ∃ micro rest, fraction t = (micro, rest) ∧ maybeOffset.accepts rest = true := by
  obtain ⟨point, rest, rfl, hpoint, hrest⟩ := accepts_row_cons.mp h
  have hoffset := accepts_row_singleton.mp hrest
  have hhead := head_of_maybeOffset hoffset
  unfold fraction
  obtain rfl | hpoint := accepts_maybe.mp hpoint
  · have hbehind : behind? '.' rest = none := by
      cases rest with
      | nil => rfl
      | cons s rest => exact if_neg (hhead s rfl).2
    rw [List.nil_append, hbehind]
    exact ⟨0, rest, rfl, hoffset⟩
  · obtain ⟨ds, rfl, hds⟩ := accepts_row_char.mp hpoint
    have hdigits := accepts_star_one.mp (accepts_row_singleton.mp hds)
    have hbehind : behind? '.' (.char '.' :: ds ++ rest) = some (ds ++ rest) := by
      simp [behind?]
    have hdropped : (ds ++ rest).dropWhile Symbol.isDigit = rest := by
      rw [List.dropWhile_append_of_pos hdigits]
      cases rest with
      | nil => rfl
      | cons s rest =>
        exact List.dropWhile_cons_of_neg (by simp [(hhead s rfl).1])
    rw [hbehind]
    exact ⟨_, _, rfl, hdropped.symm ▸ hoffset⟩

/-- A time begins with a letter or with white space. -/
theorem head_of_timeParts (h : (row timeParts).accepts t = true) :
    ∃ c rest, t = .char c :: rest ∧ (c = 'T' ∨ c = 't' ∨ c = ' ' ∨ c = '\t') := by
  obtain ⟨gap, rest, rfl, hgap, -⟩ := accepts_row_cons.mp h
  obtain hmark | hblanks := accepts_or.mp hgap
  · obtain ⟨c, hc, rfl⟩ := accepts_anyOf.mp hmark
    have hc : c = 'T' ∨ c = 't' := by simpa using hc
    exact ⟨c, rest, rfl, hc.imp_right .inl⟩
  · obtain ⟨first, more, rfl, hfirst, -⟩ := accepts_followedBy.mp hblanks
    obtain ⟨c, hc, rfl⟩ := accepts_anyOf.mp hfirst
    have hc : c = ' ' ∨ c = '\t' := by simpa using hc
    exact ⟨c, more ++ rest, rfl, .inr (.inr hc)⟩

/-- The pattern of timestamps with its parts named. -/
theorem timestampPattern_eq : timestampPattern =
    (row [digit, digit, digit, digit, char '-', digit, digit, char '-', digit, digit]).or
      (row [digit, digit, digit, digit, char '-', digit, maybe digit, char '-', digit,
        maybe digit, row timeParts]) := rfl

/-- What matches the pattern of a time is read as one. -/
theorem time?_of_row (h : (row timeParts).accepts t = true) : ∃ time, time? t = some time := by
  obtain ⟨gap, rest, rfl, hgap, hrest⟩ := accepts_row_cons.mp h
  have hhead : ∀ s ∈ rest.head?, ¬ (s = .char ' ' ∨ s = .char '\t') := by
    obtain ⟨s, tail, rfl, hs, -⟩ := accepts_row_one.mp hrest
    rintro s' ⟨⟩ (rfl | rfl)
    · exact absurd hs (by decide)
    · exact absurd hs (by decide)
  obtain ⟨hour, r1, hhour, h1⟩ := number?_of_row_two
    (fun _ => noDigitAhead_of_row_char (by decide)) hrest
  obtain ⟨r2, hbehind2, h2⟩ := behind?_of_row h1
  obtain ⟨minute, r3, hminute, h3⟩ := number?_of_row 2 2 (by decide) h2
  obtain ⟨r4, hbehind4, h4⟩ := behind?_of_row h3
  obtain ⟨second, r5, hsecond, h5⟩ := number?_of_row 2 2 (by decide) h4
  obtain ⟨micro, r6, hmicro, h6⟩ := fraction_of_row h5
  obtain ⟨offset, hoffset⟩ := offset?_of_maybeOffset h6
  refine ⟨((hour, minute, second, micro), offset), ?_⟩
  unfold time?
  obtain hmark | hblanks := accepts_or.mp hgap
  · obtain ⟨c, hc, rfl⟩ := accepts_anyOf.mp hmark
    have hc : c = 'T' ∨ c = 't' := by simpa using hc
    simp [hc, hhour, hbehind2, hminute, hbehind4, hsecond, hmicro, hoffset]
  · obtain ⟨first, more, rfl, hfirst, hmore⟩ := accepts_followedBy.mp hblanks
    obtain ⟨c, hc, rfl⟩ := accepts_anyOf.mp hfirst
    have hc : c = ' ' ∨ c = '\t' := by simpa using hc
    have hdropped := dropBlanks_append hmore hhead
    obtain rfl | rfl := hc <;>
      simp [hdropped, hhour, hbehind2, hminute, hbehind4, hsecond, hmicro, hoffset]

/-- What matches the pattern of timestamps has the parts of one. -/
theorem stamp_of_accepts (h : timestampPattern.accepts (dropLineFeed t) = true) :
    ∃ stamp, Stamp.ofText? t = some stamp := by
  rw [timestampPattern_eq] at h
  unfold Stamp.ofText?
  obtain hday | hmoment := accepts_or.mp h
  · obtain ⟨year, r1, hyear, h1⟩ := number?_of_row 4 4 (by decide) hday
    obtain ⟨r2, hbehind2, h2⟩ := behind?_of_row h1
    obtain ⟨month, r3, hmonth, h3⟩ := number?_of_row 1 2 (by decide) h2
    obtain ⟨r4, hbehind4, h4⟩ := behind?_of_row h3
    obtain ⟨day, r5, hday, h5⟩ := number?_of_row 1 2 (by decide) h4
    obtain rfl := accepts_row_nil.mp h5
    exact ⟨⟨year, month, day, none, none⟩, by simp [hyear, hbehind2, hmonth, hbehind4, hday]⟩
  · obtain ⟨year, r1, hyear, h1⟩ := number?_of_row 4 4 (by decide) hmoment
    obtain ⟨r2, hbehind2, h2⟩ := behind?_of_row h1
    obtain ⟨month, r3, hmonth, h3⟩ := number?_of_row_two
      (fun _ => noDigitAhead_of_row_char (by decide)) h2
    obtain ⟨r4, hbehind4, h4⟩ := behind?_of_row h3
    obtain ⟨day, r5, hday, h5⟩ := number?_of_row_two
      (fun rest hrest => by
        obtain ⟨c, more, rfl, hc⟩ := head_of_timeParts (accepts_row_singleton.mp hrest)
        rintro s ⟨⟩
        obtain rfl | rfl | rfl | rfl := hc <;> decide) h4
    have htime := accepts_row_singleton.mp h5
    obtain ⟨c, more, rfl, -⟩ := head_of_timeParts htime
    obtain ⟨⟨time, offset⟩, htime⟩ := time?_of_row htime
    exact ⟨⟨year, month, day, some time, offset⟩,
      by simp [hyear, hbehind2, hmonth, hbehind4, hday, htime]⟩

end Yaml

end PushButton
