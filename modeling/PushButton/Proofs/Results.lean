/-!
# Results

A computation that can fail gives a value only when the computations inside it do. What holds of its
values and of its errors follows from what holds of theirs.
-/

namespace PushButton

variable {α β ε ε' : Type}

/-- A value that comes out of a map comes from a value. -/
theorem exists_of_map_eq_ok {r : Except ε α} {f : α → β} {y : β} (h : r.map f = .ok y) :
    ∃ x, r = .ok x ∧ f x = y := by
  cases r with
  | error e => cases h
  | ok x =>
    cases h
    exact ⟨x, rfl, rfl⟩

/-- Another wording of the error leaves a value as it is. -/
theorem of_mapError_eq_ok {r : Except ε α} {f : ε → ε'} {x : α} (h : r.mapError f = .ok x) :
    r = .ok x := by
  cases r with
  | error e => cases h
  | ok y =>
    cases h
    rfl

/-- A value that comes out of two computations in a row comes from values of both. -/
theorem exists_of_bind_eq_ok {r : Except ε α} {f : α → Except ε β} {y : β}
    (h : r >>= f = .ok y) : ∃ x, r = .ok x ∧ f x = .ok y := by
  cases r with
  | error e => cases h
  | ok x => exact ⟨x, rfl, h⟩

/-- A computation that gives no value gives an error. -/
theorem exists_error_of_not_isOk {r : Except ε α × β} (h : r.1.isOk = false) :
    ∃ e y, r = (.error e, y) := by
  obtain ⟨result, y⟩ := r
  cases result with
  | error e => exact ⟨e, y, rfl⟩
  | ok x => cases h

/-- A value has one property, and an error has another. -/
def Gives (E : ε → Prop) (P : α → Prop) : Except ε α → Prop
  | .ok x => P x
  | .error e => E e

namespace Gives

variable {E : ε → Prop} {P : α → Prop} {Q : β → Prop} {r : Except ε α}

/-- Weaker properties. -/
theorem imp {P' : α → Prop} (h : Gives E P r) (himp : ∀ x, P x → P' x) : Gives E P' r := by
  cases r with
  | error e => exact h
  | ok x => exact himp x h

/-- Two computations in a row. -/
theorem bind {f : α → Except ε β} (h : Gives E P r) (hf : ∀ x, P x → Gives E Q (f x)) :
    Gives E Q (r >>= f) := by
  cases r with
  | error e => exact h
  | ok x => exact hf x h

/-- A value that is changed. -/
theorem map {f : α → β} (h : Gives E P r) (hf : ∀ x, P x → Q (f x)) : Gives E Q (r.map f) := by
  cases r with
  | error e => exact h
  | ok x => exact hf x h

/-- A choice of two computations. -/
theorem ite {c : Prop} [Decidable c] {r' : Except ε α} (h : c → Gives E P r)
    (h' : ¬ c → Gives E P r') : Gives E P (if c then r else r') := by
  by_cases hc : c
  · rw [if_pos hc]
    exact h hc
  · rw [if_neg hc]
    exact h' hc

/-- A computation for each of several values. -/
theorem mapM {f : α → Except ε β} {xs : List α} (h : ∀ x ∈ xs, Gives E Q (f x)) :
    Gives E (fun ys => ys.length = xs.length ∧ ∀ y ∈ ys, Q y) (xs.mapM f) := by
  induction xs with
  | nil => exact ⟨rfl, nofun⟩
  | cons x xs ih =>
    obtain ⟨hx, hxs⟩ := List.forall_mem_cons.mp h
    rw [List.mapM_cons]
    refine hx.bind fun y hy => (ih hxs).bind fun ys hys => ?_
    exact ⟨by rw [List.length_cons, List.length_cons, hys.1], List.forall_mem_cons.mpr ⟨hy, hys.2⟩⟩

end Gives

end PushButton
