import Mathlib.Data.List.Forall2
import PushButton.Workflow.Format

/-!
# Checks that miss nothing

A check of a part of a document reports what it should when it gives the one value that the part
describes, or else lists every defect of the part once, in the order of the document. Checks that
are put together from such checks do so too.
-/

namespace PushButton

/-- The position of a step among the steps of its kind: fields stand in the order in which they are
described, and items in theirs. -/
def Place.rank : Place → Nat
  | .field name =>
    (["buttonLabel", "button_label", "actions", "id", "type", "params"] : List Text).idxOf name
  | .index n => n

/-- A problem stands before another one in the order of the document. -/
def Problem.Before (p q : Problem) : Prop := p.place.map Place.rank < q.place.map Place.rank

/-- The order of problems of a part is their order in the whole. -/
theorem Problem.before_under {place : Place} {p q : Problem} :
    (p.under place).Before (q.under place) ↔ p.Before q := by
  unfold Before under
  simp only [List.map_cons, List.cons_lt_cons_iff, Nat.lt_irrefl, false_or, true_and]

/-- Problems of two parts stand in the order of the parts. -/
theorem Problem.before_of_rank {a b : Place} (h : a.rank < b.rank) (p q : Problem) :
    (p.under a).Before (q.under b) := by
  unfold Before under
  simp only [List.map_cons, List.cons_lt_cons_iff]
  exact .inl h

namespace Checked

variable {α β γ : Type} {P : α → Prop} {D : Problem → Prop}

/-- A check gives the one value of which something holds, and then there is no defect; or nothing
has it, and the check lists the defects, every one of them once and in order. -/
inductive Reports (P : α → Prop) (D : Problem → Prop) : Checked α → Prop
  /-- The check gives a value. -/
  | passes {x : α} : (∀ y, P y ↔ y = x) → (∀ p, ¬ D p) → Reports P D (.ok x)
  /-- The check lists the defects. -/
  | fails {ps : List Problem} : (∀ y, ¬ P y) → ps ≠ [] → ps.Pairwise Problem.Before →
      (∀ p, p ∈ ps ↔ D p) → Reports P D (.error ps)

namespace Reports

variable {c : Checked α}

/-- A check gives a value exactly when something holds of it. -/
theorem eq_ok_iff (h : Reports P D c) (x : α) : c = .ok x ↔ P x := by
  cases h with
  | passes hy _ =>
    rw [hy, Except.ok.injEq]
    exact eq_comm
  | fails hno _ _ _ => exact ⟨nofun, fun hx => absurd hx (hno x)⟩

/-- The value and the defects in other words. -/
theorem congr {P' : α → Prop} {D' : Problem → Prop} (h : Reports P D c) (hP : ∀ y, P' y ↔ P y)
    (hD : ∀ p, D' p ↔ D p) : Reports P' D' c := by
  cases h with
  | passes hx hnone =>
    exact .passes (fun y => (hP y).trans (hx y)) fun p => (hD p).not.mpr (hnone p)
  | fails hno hne hordered hall =>
    exact .fails (fun y => (hP y).not.mpr (hno y)) hne hordered fun p => (hall p).trans (hD p).symm

/-- A check that complains about the part itself. -/
theorem refuse {complaint : Complaint} (hno : ∀ y, ¬ P y)
    (hD : ∀ p, D p ↔ p = ⟨[], complaint⟩) : Reports P D (Checked.refuse complaint) := by
  refine .fails hno (by simp) (List.pairwise_singleton _ _) fun p => ?_
  rw [List.mem_singleton]
  exact (hD p).symm

/-- The check of a part is one of the whole. -/
theorem under (h : Reports P D c) (place : Place) :
    Reports P (fun p => ∃ q, D q ∧ p = q.under place) (Checked.under place c) := by
  cases h with
  | passes hx hnone => exact .passes hx fun p ⟨q, hq, _⟩ => hnone q hq
  | @fails ps hno hne hordered hall =>
    refine .fails hno (by simpa using hne) ?_ fun p => ?_
    · exact List.pairwise_map.mpr (hordered.imp Problem.before_under.mpr)
    · simp only [List.mem_map, hall]
      exact ⟨fun ⟨q, hq, hp⟩ => ⟨q, hq, hp.symm⟩, fun ⟨q, hq, hp⟩ => ⟨q, hq, hp.symm⟩⟩

/-- The value of a check is turned into another one. -/
theorem map {Q : β → Prop} (h : Reports P D c) (f : α → β) (hQ : ∀ z, Q z ↔ ∃ y, P y ∧ z = f y) :
    Reports Q D (c.map f) := by
  cases h with
  | @passes x hx hnone =>
    refine .passes (fun z => ?_) hnone
    rw [hQ]
    constructor
    · rintro ⟨y, hy, rfl⟩
      rw [(hx y).mp hy]
    · rintro rfl
      exact ⟨x, (hx x).mpr rfl, rfl⟩
  | fails hno hne hordered hall =>
    refine .fails (fun z hz => ?_) hne hordered hall
    obtain ⟨y, hy, -⟩ := (hQ z).mp hz
    exact hno y hy

/-- Two checks, the second one of a part that comes later. -/
theorem both {P' : β → Prop} {D' : Problem → Prop} {c' : Checked β} (h : Reports P D c)
    (h' : Reports P' D' c') (hbefore : ∀ p q, D p → D' q → p.Before q) :
    Reports (fun z => P z.1 ∧ P' z.2) (fun p => D p ∨ D' p) (Checked.both c c') := by
  cases h with
  | @passes x hx hnone =>
    cases h' with
    | @passes x' hx' hnone' =>
      refine .passes (fun z => ?_) fun p hp => hp.elim (hnone p) (hnone' p)
      rw [hx, hx', Prod.ext_iff]
    | fails hno hne hordered hall =>
      refine .fails (fun z hz => hno z.2 hz.2) hne hordered fun p => ?_
      rw [hall]
      exact ⟨.inr, fun hp => hp.resolve_left (hnone p)⟩
  | fails hno hne hordered hall =>
    cases h' with
    | passes hx' hnone' =>
      refine .fails (fun z hz => hno z.1 hz.1) hne hordered fun p => ?_
      rw [hall]
      exact ⟨.inl, fun hp => hp.resolve_right (hnone' p)⟩
    | fails hno' hne' hordered' hall' =>
      refine .fails (fun z hz => hno z.1 hz.1) (by simp [hne]) ?_ fun p => ?_
      · rw [List.pairwise_append]
        refine ⟨hordered, hordered', fun p hp q hq => ?_⟩
        exact hbefore p q ((hall p).mp hp) ((hall' q).mp hq)
      · rw [List.mem_append, hall, hall']

/-- The items of a list are checked one after the other. The induction is on the list; what is wrong
with the first item stands before what is wrong with the others. -/
theorem items {check : α → Checked β} {P : α → β → Prop} {D : α → Problem → Prop} {xs : List α}
    (h : ∀ x ∈ xs, Reports (P x) (D x) (check x)) (index : Nat) :
    Reports (List.Forall₂ P xs)
      (fun p => ∃ i x q, xs[i]? = some x ∧ D x q ∧ p = q.under (.index (index + i)))
      (Checked.items check index xs) := by
  induction xs generalizing index with
  | nil =>
    refine .passes (fun ys => ?_) fun p ⟨i, x, q, hx, _⟩ => ?_
    · rw [List.forall₂_nil_left_iff]
    · cases hx
  | cons x rest ih =>
    have hfirst := (h x (by simp)).under (.index index)
    have hrest := ih (fun y hy => h y (by simp [hy])) (index + 1)
    have hbefore (p q : Problem) (hp : ∃ p', D x p' ∧ p = p'.under (.index index))
        (hq : ∃ i y q', rest[i]? = some y ∧ D y q' ∧ q = q'.under (.index (index + 1 + i))) :
        p.Before q := by
      obtain ⟨p', -, rfl⟩ := hp
      obtain ⟨i, y, q', -, -, rfl⟩ := hq
      refine Problem.before_of_rank ?_ p' q'
      change index < index + 1 + i
      omega
    refine ((hfirst.both hrest hbefore).map (Q := List.Forall₂ P (x :: rest)) _ fun ys => ?_).congr
      (fun _ => .rfl) fun p => ?_
    · cases ys with
      | nil => simp
      | cons y ys =>
        rw [List.forall₂_cons]
        constructor
        · rintro ⟨hy, hys⟩
          exact ⟨(y, ys), ⟨hy, hys⟩, rfl⟩
        · rintro ⟨⟨y', ys'⟩, ⟨hy, hys⟩, heq⟩
          obtain ⟨rfl, rfl⟩ := List.cons.inj heq
          exact ⟨hy, hys⟩
    · constructor
      · rintro ⟨i, y, q, hy, hq, rfl⟩
        cases i with
        | zero =>
          obtain rfl := Option.some.inj hy
          exact .inl ⟨q, hq, rfl⟩
        | succ i => exact .inr ⟨i, y, q, hy, hq, by rw [Nat.add_right_comm, Nat.add_assoc]⟩
      · rintro (⟨q, hq, rfl⟩ | ⟨i, y, q, hy, hq, rfl⟩)
        · exact ⟨0, x, q, rfl, hq, rfl⟩
        · exact ⟨i + 1, y, q, hy, hq, by rw [Nat.add_right_comm, Nat.add_assoc]⟩

end Reports

end Checked

end PushButton
