import PushButton.Text.Lines

/-!
# Reading lines

Reading the first line of a text over and over gives its lines in order: a text at its end has no
lines, and otherwise its first line is the one that is read, and the others are those of the rest.
-/

namespace PushButton

namespace Text

variable {sep : Symbol} {t a b line rest : Text}

/-- There is at least one piece. -/
theorem splitOn_ne_nil (sep : Symbol) (t : Text) : splitOn sep t ≠ [] := by
  induction t with
  | nil => exact List.cons_ne_nil _ _
  | cons x xs ih =>
    unfold splitOn
    split
    · exact List.cons_ne_nil _ _
    · cases hpieces : splitOn sep xs with
      | nil => exact absurd hpieces ih
      | cons piece pieces => exact List.cons_ne_nil _ _

/-- A text without the symbol is one piece. -/
theorem splitOn_of_cut?_eq_none (h : cut? sep t = none) : splitOn sep t = [t] := by
  induction t with
  | nil => rfl
  | cons x xs ih =>
    unfold cut? at h
    split at h
    · cases h
    · next hx =>
      rw [splitOn, if_neg hx, ih (Option.map_eq_none_iff.mp h)]

/-- The first piece is what is in front of the first symbol, and the others are those of what is
behind it. -/
theorem splitOn_of_cut?_eq_some (h : cut? sep t = some (a, b)) :
    splitOn sep t = a :: splitOn sep b := by
  induction t generalizing a with
  | nil => cases h
  | cons x xs ih =>
    unfold cut? at h
    split at h
    · next hx =>
      cases h
      rw [splitOn, if_pos hx]
    · next hx =>
      obtain ⟨⟨a', b'⟩, hcut, hpair⟩ := Option.map_eq_some_iff.mp h
      obtain ⟨rfl, rfl⟩ := Prod.mk.inj hpair
      rw [splitOn, if_neg hx, ih hcut]

/-- A text at its end has no lines. -/
theorem lines_of_nextLine?_eq_none (h : nextLine? t = none) : lines t = [] := by
  cases t with
  | nil => rfl
  | cons x xs => cases h

/-- **The lines are read one after the other.** -/
theorem lines_of_nextLine?_eq_some (h : nextLine? t = some (line, rest)) :
    lines t = line :: lines rest := by
  unfold nextLine? at h
  split at h
  · cases h
  next hne =>
  cases hcut : cut? (.char '\n') t with
  | none =>
    rw [hcut] at h
    cases h
    have hlast : ¬ t = [] := by simpa using hne
    simp [lines, splitOn_of_cut?_eq_none hcut, hlast, splitOn]
  | some parts =>
    rw [hcut] at h
    obtain ⟨rfl⟩ := h
    have hpieces := splitOn_ne_nil (.char '\n') rest
    unfold lines
    rw [splitOn_of_cut?_eq_some hcut]
    dsimp only
    rw [List.getLast?_cons_of_ne_nil hpieces, List.dropLast_cons_of_ne_nil hpieces]
    split
    · rfl
    · rfl

end Text

end PushButton
