import PushButton.Yaml.Scalar

/-!
# Moving on in a document

What is left, and how many symbols and lines are in front of the place, when the place has moved on
by a number of symbols.
-/

namespace PushButton

namespace Yaml

namespace Cursor

/-- Behind a symbol, the rest is left. -/
theorem step_rest {c : Cursor} {s : Symbol} {rest : Text} (hc : c.rest = s :: rest) :
    c.step.rest = rest := by
  unfold step
  rw [hc]

/-- One symbol more is in front of the place. -/
theorem step_index {c : Cursor} {s : Symbol} {rest : Text} (hc : c.rest = s :: rest) :
    c.step.index = c.index + 1 := by
  unfold step
  rw [hc]

/-- Behind a symbol that ends no line, the line is the same. -/
theorem step_line {c : Cursor} {s : Symbol} {rest : Text} (hc : c.rest = s :: rest)
    (hs : s.isBreak = false) : c.step.line = c.line := by
  unfold step
  rw [hc]
  dsimp only
  rw [hs, Bool.false_and, if_neg Bool.false_ne_true]

/-- Behind some symbols, the rest is left. -/
theorem skip_rest {c : Cursor} {t more : Text} (hc : c.rest = t ++ more) :
    (c.skip t.length).rest = more := by
  induction t generalizing c with
  | nil => exact hc
  | cons s t ih => exact ih (step_rest hc)

/-- So many symbols more are in front of the place. -/
theorem skip_index {c : Cursor} {t more : Text} (hc : c.rest = t ++ more) :
    (c.skip t.length).index = c.index + t.length := by
  induction t generalizing c with
  | nil => rfl
  | cons s t ih =>
    have hstep := ih (step_rest hc)
    rw [step_index hc] at hstep
    rw [List.length_cons, Nat.add_comm t.length 1, ← Nat.add_assoc]
    rw [← hstep, Nat.add_comm 1 t.length]
    rfl

/-- Behind symbols that end no line, the line is the same. -/
theorem skip_line {c : Cursor} {t more : Text} (hc : c.rest = t ++ more)
    (ht : ∀ s ∈ t, s.isBreak = false) : (c.skip t.length).line = c.line := by
  induction t generalizing c with
  | nil => rfl
  | cons s t ih =>
    have hstep := ih (step_rest hc) fun s' hs' => ht s' (List.mem_cons_of_mem s hs')
    rw [step_line hc (ht s (by simp))] at hstep
    exact hstep

/-- The place is moved on twice. -/
theorem skip_add (c : Cursor) (m n : Nat) : c.skip (m + n) = (c.skip m).skip n := by
  induction m generalizing c with
  | zero => rw [Nat.zero_add]; rfl
  | succ m ih =>
    rw [Nat.add_right_comm]
    exact ih c.step

/-- Behind the symbols that satisfy a test, up to one that does not. -/
theorem takeWhile_eq {c : Cursor} {p : Symbol → Bool} {t : Text} {x : Symbol} {more : Text}
    (hc : c.rest = t ++ x :: more) (ht : ∀ s ∈ t, p s = true) (hx : p x = false) :
    c.rest.takeWhile p = t := by
  rw [hc, List.takeWhile_append_of_pos ht, List.takeWhile_cons, hx]
  simp

end Cursor

end Yaml

end PushButton
