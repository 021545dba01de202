import PushButton.Text.Pattern

/-!
# What patterns match

Which texts a pattern matches, for each way in which patterns are put together. The derivatives by
which a pattern is matched do not occur in these laws.
-/

namespace PushButton

namespace Pattern

variable {p q : Pattern} {t : Text}

/-- The empty pattern matches the empty text only. -/
theorem accepts_empty : empty.accepts t = true ↔ t = [] := by
  cases t with
  | nil => exact ⟨fun _ => rfl, fun _ => rfl⟩
  | cons s rest => simp [derivative]

/-- One symbol is matched that satisfies the test. -/
theorem accepts_one {test : Symbol → Bool} :
    (one test).accepts t = true ↔ ∃ s, t = [s] ∧ test s = true := by
  cases t with
  | nil => simp [accepts, acceptsEmpty]
  | cons s rest =>
    rw [accepts_cons, derivative]
    by_cases hs : test s = true
    · rw [if_pos hs, accepts_empty]
      constructor
      · rintro rfl
        exact ⟨s, rfl, hs⟩
      · rintro ⟨x, hx, -⟩
        exact (List.cons.inj hx).2
    · rw [if_neg hs, accepts_never]
      constructor
      · nofun
      · rintro ⟨x, hx, htest⟩
        obtain ⟨rfl, -⟩ := List.cons.inj hx
        exact (hs htest).elim

/-- A character. -/
theorem accepts_char {c : Char} : (char c).accepts t = true ↔ t = [.char c] := by
  rw [char, accepts_one]
  constructor
  · rintro ⟨s, rfl, hs⟩
    rw [of_decide_eq_true hs]
  · rintro rfl
    exact ⟨_, rfl, by simp⟩

/-- A choice that is shortened matches what one of the two matches. -/
theorem accepts_or_of_alt (halt : (alt p q).accepts t = (p.accepts t || q.accepts t)) :
    (p.or q).accepts t = (p.accepts t || q.accepts t) := by
  unfold Pattern.or
  split
  · rw [accepts_never, Bool.false_or]
  · rw [accepts_never, Bool.or_false]
  · exact halt

/-- A choice matches what one of the two matches. The induction is on the text. -/
theorem accepts_alt (p q : Pattern) (t : Text) :
    (alt p q).accepts t = (p.accepts t || q.accepts t) := by
  induction t generalizing p q with
  | nil => rfl
  | cons s rest ih =>
    rw [accepts_cons, accepts_cons, accepts_cons, derivative]
    exact accepts_or_of_alt (ih _ _)

/-- A choice matches what one of the two matches. -/
theorem accepts_or : (p.or q).accepts t = true ↔ p.accepts t = true ∨ q.accepts t = true := by
  rw [accepts_or_of_alt (accepts_alt p q t), Bool.or_eq_true]

/-- A row that is shortened matches what the row matches. -/
theorem accepts_followedBy_of_seq (hseq : (seq p q).accepts t = true ↔
      ∃ a b, t = a ++ b ∧ p.accepts a = true ∧ q.accepts b = true) :
    (p.followedBy q).accepts t = true ↔
      ∃ a b, t = a ++ b ∧ p.accepts a = true ∧ q.accepts b = true := by
  unfold followedBy
  split
  · simp
  · constructor
    · exact fun h => ⟨[], t, rfl, rfl, h⟩
    · rintro ⟨a, b, rfl, ha, hb⟩
      obtain rfl := accepts_empty.mp ha
      exact hb
  · exact hseq

/-- A row of two matches a text in two parts. The induction is on the text. -/
theorem accepts_seq (p q : Pattern) (t : Text) : (seq p q).accepts t = true ↔
    ∃ a b, t = a ++ b ∧ p.accepts a = true ∧ q.accepts b = true := by
  induction t generalizing p q with
  | nil =>
    have hempty : (seq p q).accepts [] = (p.acceptsEmpty && q.acceptsEmpty) := rfl
    rw [hempty, Bool.and_eq_true]
    constructor
    · rintro ⟨hp, hq⟩
      exact ⟨[], [], rfl, hp, hq⟩
    · rintro ⟨a, b, hab, ha, hb⟩
      obtain ⟨rfl, rfl⟩ := List.append_eq_nil_iff.mp hab.symm
      exact ⟨ha, hb⟩
  | cons s rest ih =>
    have hfirst := accepts_followedBy_of_seq (ih (p.derivative s) q)
    have hlater : (q.derivative s).accepts rest = q.accepts (s :: rest) := rfl
    rw [accepts_cons, derivative]
    -- the first symbol belongs to the first part, or that part is empty
    have hsplit : (∃ a b, s :: rest = a ++ b ∧ p.accepts a = true ∧ q.accepts b = true) ↔
        (∃ a b, rest = a ++ b ∧ (p.derivative s).accepts a = true ∧ q.accepts b = true) ∨
          p.acceptsEmpty = true ∧ q.accepts (s :: rest) = true := by
      constructor
      · rintro ⟨a, b, hab, ha, hb⟩
        cases a with
        | nil =>
          obtain rfl : s :: rest = b := hab
          exact .inr ⟨ha, hb⟩
        | cons x a =>
          obtain ⟨rfl, rfl⟩ := List.cons.inj hab
          exact .inl ⟨a, b, rfl, ha, hb⟩
      · rintro (⟨a, b, rfl, ha, hb⟩ | ⟨hp, hq⟩)
        · exact ⟨s :: a, b, rfl, ha, hb⟩
        · exact ⟨[], s :: rest, rfl, hp, hq⟩
    rw [hsplit]
    by_cases hp : p.acceptsEmpty = true
    · rw [if_pos hp, accepts_or, hfirst, hlater]
      simp [hp]
    · rw [if_neg hp, hfirst]
      simp [hp]

/-- One pattern behind the other matches a text in two parts. -/
theorem accepts_followedBy : (p.followedBy q).accepts t = true ↔
    ∃ a b, t = a ++ b ∧ p.accepts a = true ∧ q.accepts b = true :=
  accepts_followedBy_of_seq (accepts_seq p q t)

/-- A pattern or nothing. -/
theorem accepts_maybe : (maybe p).accepts t = true ↔ t = [] ∨ p.accepts t = true := by
  rw [maybe, accepts_or, accepts_empty]

/-- No pattern in a row. -/
theorem accepts_row_nil : (row []).accepts t = true ↔ t = [] := accepts_empty

/-- One pattern more in a row. -/
theorem accepts_row_cons {ps : List Pattern} : (row (p :: ps)).accepts t = true ↔
    ∃ a b, t = a ++ b ∧ p.accepts a = true ∧ (row ps).accepts b = true := accepts_followedBy

/-- A single pattern in a row. -/
theorem accepts_row_singleton : (row [p]).accepts t = true ↔ p.accepts t = true := by
  rw [accepts_row_cons]
  constructor
  · rintro ⟨a, b, rfl, ha, hb⟩
    rwa [accepts_row_nil.mp hb, List.append_nil]
  · intro h
    exact ⟨t, [], (List.append_nil t).symm, h, accepts_row_nil.mpr rfl⟩

/-- A character in front of a row. -/
theorem accepts_row_char {c : Char} {ps : List Pattern} :
    (row (char c :: ps)).accepts t = true ↔
      ∃ rest, t = .char c :: rest ∧ (row ps).accepts rest = true := by
  rw [accepts_row_cons]
  constructor
  · rintro ⟨a, rest, rfl, ha, hrest⟩
    rw [accepts_char.mp ha]
    exact ⟨rest, rfl, hrest⟩
  · rintro ⟨rest, rfl, hrest⟩
    exact ⟨[.char c], rest, rfl, accepts_char.mpr rfl, hrest⟩

/-- A part of what a row matches is matched by one of its patterns. -/
theorem exists_part_of_row {ps : List Pattern} (h : (row ps).accepts t = true) (hp : p ∈ ps) :
    ∃ a, p.accepts a = true ∧ a ⊆ t := by
  induction ps generalizing t with
  | nil => cases hp
  | cons q ps ih =>
    obtain ⟨a, b, rfl, ha, hb⟩ := accepts_row_cons.mp h
    obtain rfl | hp := List.mem_cons.mp hp
    · exact ⟨a, ha, List.subset_append_left a b⟩
    · obtain ⟨c, hc, hsubset⟩ := ih hb hp
      exact ⟨c, hc, List.Subset.trans hsubset (List.subset_append_right a b)⟩

/-- One of several patterns. -/
theorem accepts_anyPattern {ps : List Pattern} :
    (anyPattern ps).accepts t = true ↔ ∃ p ∈ ps, p.accepts t = true := by
  induction ps with
  | nil => simp [anyPattern]
  | cons p ps ih =>
    have hcons : anyPattern (p :: ps) = p.or (anyPattern ps) := rfl
    rw [hcons, accepts_or, ih]
    simp

/-- One of the characters of a string. -/
theorem accepts_anyOf {cs : String} :
    (anyOf cs).accepts t = true ↔ ∃ c ∈ cs.toList, t = [.char c] := by
  rw [anyOf, accepts_one]
  constructor
  · rintro ⟨s, rfl, hs⟩
    obtain ⟨c, hc, hsc⟩ := List.any_eq_true.mp hs
    exact ⟨c, hc, by rw [of_decide_eq_true hsc]⟩
  · rintro ⟨c, hc, rfl⟩
    exact ⟨_, rfl, List.any_eq_true.mpr ⟨c, hc, by simp⟩⟩

/-- A word. -/
theorem accepts_word {w : String} : (word w).accepts t = true ↔ t = Text.ofString w := by
  unfold word Text.ofString
  generalize w.toList = cs
  induction cs generalizing t with
  | nil => exact accepts_empty
  | cons c cs ih =>
    rw [List.foldr_cons, accepts_followedBy, List.map_cons]
    constructor
    · rintro ⟨a, b, rfl, ha, hb⟩
      rw [accepts_char.mp ha, ih.mp hb]
      rfl
    · rintro rfl
      exact ⟨[.char c], _, rfl, accepts_char.mpr rfl, ih.mpr rfl⟩

/-- One of several words. -/
theorem accepts_words {ws : List String} :
    (words ws).accepts t = true ↔ ∃ w ∈ ws, t = Text.ofString w := by
  induction ws with
  | nil => simp [words]
  | cons w ws ih =>
    have hcons : words (w :: ws) = (word w).or (words ws) := rfl
    rw [hcons, accepts_or, accepts_word, ih]
    simp

/-- A symbol that satisfies a test in front of a row. -/
theorem accepts_row_one {test : Symbol → Bool} {ps : List Pattern} :
    (row (one test :: ps)).accepts t = true ↔
      ∃ s rest, t = s :: rest ∧ test s = true ∧ (row ps).accepts rest = true := by
  rw [accepts_row_cons]
  constructor
  · rintro ⟨a, rest, rfl, ha, hrest⟩
    obtain ⟨s, rfl, hs⟩ := accepts_one.mp ha
    exact ⟨s, rest, rfl, hs, hrest⟩
  · rintro ⟨s, rest, rfl, hs, hrest⟩
    exact ⟨[s], rest, rfl, accepts_one.mpr ⟨s, rfl, hs⟩, hrest⟩

/-- Any number of symbols that satisfy a test. -/
theorem accepts_star_one {test : Symbol → Bool} :
    (star (one test)).accepts t = true ↔ ∀ s ∈ t, test s = true := by
  induction t with
  | nil => simp [accepts, acceptsEmpty]
  | cons s rest ih =>
    rw [accepts_cons, derivative, derivative, List.forall_mem_cons, ← ih]
    by_cases hs : test s = true
    · rw [if_pos hs]
      simp [followedBy, hs]
    · rw [if_neg hs]
      simp [followedBy, hs]

end Pattern

end PushButton
