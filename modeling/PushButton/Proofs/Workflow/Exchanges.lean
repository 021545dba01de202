import Mathlib.Data.List.Perm.Basic
import PushButton.Workflow.Editing

/-!
# Moves of actions

A move exchanges two neighbours. It takes place exactly where both are there, and the move in the
other direction undoes it. Exchanges of neighbours reach every order of a list: a permutation is
built from the exchange of the first two items, from permutations behind a first item, where every
position is one further on, and from permutations one after the other.
-/

namespace PushButton

namespace Workflow

/-! ## Exchanges in a list -/

section Exchanges

variable {α : Type} {n : Nat} {xs ys zs : List α}

/-- **An exchange splits the list** in what is before two neighbours, these, and what is after
them. -/
theorem exchange?_eq_some_iff :
    exchange? n xs = some ys ↔
      ∃ before a b after, before.length = n ∧ xs = before ++ a :: b :: after ∧
        ys = before ++ b :: a :: after := by
  constructor
  · intro h
    fun_induction exchange? n xs generalizing ys with
    | case1 a b rest =>
      cases h
      exact ⟨[], a, b, rest, rfl, rfl, rfl⟩
    | case2 n c rest ih =>
      obtain ⟨_, hrest, rfl⟩ := Option.map_eq_some_iff.mp h
      obtain ⟨before, a, b, after, rfl, rfl, rfl⟩ := ih hrest
      exact ⟨c :: before, a, b, after, rfl, rfl, rfl⟩
    | case3 => cases h
  · rintro ⟨before, a, b, after, rfl, rfl, rfl⟩
    induction before with
    | nil => rfl
    | cons c before ih => exact Option.map_eq_some_iff.mpr ⟨_, ih, rfl⟩

/-- Two neighbours are exchanged where both are there. -/
theorem isSome_exchange? : (exchange? n xs).isSome = true ↔ n + 1 < xs.length := by
  constructor
  · intro h
    obtain ⟨ys, hys⟩ := Option.isSome_iff_exists.mp h
    obtain ⟨before, a, b, after, rfl, rfl, -⟩ := exchange?_eq_some_iff.mp hys
    simp
  · intro h
    have hsplit : xs = xs.take n ++ xs[n] :: xs[n + 1] :: xs.drop (n + 2) := by
      rw [List.getElem_cons_drop, List.getElem_cons_drop, List.take_append_drop]
    have hlength : (xs.take n).length = n := List.length_take_of_le (by omega)
    exact Option.isSome_iff_exists.mpr
      ⟨_, exchange?_eq_some_iff.mpr ⟨_, _, _, _, hlength, hsplit, rfl⟩⟩

/-- The list after exchanges at positions, one after the other; nothing when one of them is not
possible. -/
def exchangeAll? (positions : List Nat) (xs : List α) : Option (List α) :=
  positions.foldlM (fun xs n => exchange? n xs) xs

/-- The first exchange, and then the others. -/
theorem exchangeAll?_cons (n : Nat) (positions : List Nat) (xs : List α) :
    exchangeAll? (n :: positions) xs = (exchange? n xs).bind (exchangeAll? positions) :=
  List.foldlM_cons

/-- Exchanges after other ones. -/
theorem exchangeAll?_append {positions more : List Nat} (h : exchangeAll? positions xs = some ys)
    (hmore : exchangeAll? more ys = some zs) : exchangeAll? (positions ++ more) xs = some zs := by
  rw [exchangeAll?, List.foldlM_append, ← exchangeAll?, h]
  exact hmore

/-- Exchanges behind a first item are exchanges one position further on. -/
theorem exchangeAll?_cons_of {positions : List Nat} (a : α)
    (h : exchangeAll? positions xs = some ys) :
    exchangeAll? (positions.map (· + 1)) (a :: xs) = some (a :: ys) := by
  induction positions generalizing xs with
  | nil =>
    cases h
    rfl
  | cons n positions ih =>
    rw [exchangeAll?_cons] at h
    obtain ⟨zs, hfirst, hrest⟩ := Option.bind_eq_some_iff.mp h
    have hstep : exchange? (n + 1) (a :: xs) = some (a :: zs) :=
      Option.map_eq_some_iff.mpr ⟨zs, hfirst, rfl⟩
    rw [List.map_cons, exchangeAll?_cons, hstep]
    exact ih hrest

/-- **Exchanges of neighbours reach every order.** The induction is on how the permutation is
built. -/
theorem exists_exchangeAll?_of_perm (h : xs.Perm ys) :
    ∃ positions, exchangeAll? positions xs = some ys := by
  induction h with
  | nil => exact ⟨[], rfl⟩
  | cons a _ ih =>
    obtain ⟨positions, hpositions⟩ := ih
    exact ⟨_, exchangeAll?_cons_of a hpositions⟩
  | swap a b rest => exact ⟨[0], rfl⟩
  | trans _ _ ih₁ ih₂ =>
    obtain ⟨positions, hpositions⟩ := ih₁
    obtain ⟨more, hmore⟩ := ih₂
    exact ⟨_, exchangeAll?_append hpositions hmore⟩

end Exchanges

/-! ## Moves in a workflow -/

/-- Whether a change took place, and the workflow afterwards. -/
def tried (w : Workflow) (changed : Option Workflow) : Bool × Workflow :=
  (changed.isSome, changed.getD w)

/-- The answer to a move to the front, and the workflow after it. -/
def up (w : Workflow) (index : Int) : Bool × Workflow := w.tried (w.moveUp? index)

/-- The answer to a move to the back, and the workflow after it. -/
def down (w : Workflow) (index : Int) : Bool × Workflow := w.tried (w.moveDown? index)

/-- The answers to moves to the front, one after the other, and the workflow after them. -/
def upAll (w : Workflow) : List Int → List Bool × Workflow
  | [] => ([], w)
  | index :: rest =>
    let next := (w.up index).2.upAll rest
    ((w.up index).1 :: next.1, next.2)

/-- An action is at a position. -/
def HasPosition (w : Workflow) (index : Int) : Prop := 0 ≤ index ∧ index < w.actions.length

/-- A workflow is another one with the actions at a position and at the next one exchanged. -/
def IsExchangedAt (w : Workflow) (index : Int) (w' : Workflow) : Prop :=
  ∃ before a b after, (before.length : Int) = index ∧ w.actions = before ++ a :: b :: after ∧
    w' = { w with actions := before ++ b :: a :: after }

variable {w w' : Workflow} {index : Int}

/-- A change that does not take place leaves the workflow. -/
theorem tried_of_refused {changed : Option Workflow} (h : (w.tried changed).1 = false) :
    (w.tried changed).2 = w := by
  cases changed with
  | none => rfl
  | some _ => cases h

/-- A change takes place and leads to a workflow exactly when there is one to lead to. -/
theorem tried_eq_true_iff {changed : Option Workflow} :
    w.tried changed = (true, w') ↔ changed = some w' := by
  cases changed with
  | none => simp [tried]
  | some _ => simp [tried]

/-- A move to the back exchanges the actions at its position and at the next one. -/
theorem moveDown?_eq_some_iff : w.moveDown? index = some w' ↔ w.IsExchangedAt index w' := by
  unfold moveDown? IsExchangedAt
  split
  · next hneg =>
    constructor
    · rintro ⟨⟩
    · rintro ⟨before, -, -, -, hlength, -⟩
      omega
  · next hnonneg =>
    simp only [Option.map_eq_some_iff, exchange?_eq_some_iff]
    constructor
    · rintro ⟨_, ⟨before, a, b, after, hlength, hw, rfl⟩, rfl⟩
      exact ⟨before, a, b, after, by omega, hw, rfl⟩
    · rintro ⟨before, a, b, after, hlength, hw, rfl⟩
      exact ⟨_, ⟨before, a, b, after, by omega, hw, rfl⟩, rfl⟩

/-- A move to the front is a move of the action before it to the back. -/
theorem moveUp?_eq_moveDown? (w : Workflow) (index : Int) :
    w.moveUp? index = w.moveDown? (index - 1) := by
  unfold moveUp? moveDown?
  by_cases h : index ≤ 0
  · rw [if_pos h, if_pos (by omega)]
  · rw [if_neg h, if_neg (by omega)]

/-- Actions are exchanged where both positions are there. -/
theorem isSome_moveDown? : (w.moveDown? index).isSome = true ↔
    w.HasPosition index ∧ w.HasPosition (index + 1) := by
  unfold moveDown? HasPosition
  split
  · next hneg =>
    simp only [Option.isSome_none, Bool.false_eq_true, false_iff]
    omega
  · next hnonneg =>
    rw [Option.isSome_map, isSome_exchange?]
    omega

/-- What was exchanged is exchanged back. -/
theorem IsExchangedAt.symm (h : w.IsExchangedAt index w') : w'.IsExchangedAt index w := by
  obtain ⟨before, a, b, after, hlength, hw, rfl⟩ := h
  refine ⟨before, b, a, after, hlength, rfl, ?_⟩
  rw [← hw]

/-- An exchange keeps the label and permutes the actions. -/
theorem IsExchangedAt.perm (h : w.IsExchangedAt index w') :
    w'.label = w.label ∧ w'.actions.Perm w.actions := by
  obtain ⟨before, a, b, after, -, hw, rfl⟩ := h
  refine ⟨rfl, ?_⟩
  rw [hw]
  exact (List.Perm.swap a b after).append_left before

/-- A move to the back that is tried permutes the actions. -/
theorem perm_down (w : Workflow) (index : Int) :
    (w.down index).2.label = w.label ∧ (w.down index).2.actions.Perm w.actions := by
  unfold down tried
  cases h : w.moveDown? index with
  | none => exact ⟨rfl, .refl _⟩
  | some w' => exact (moveDown?_eq_some_iff.mp h).perm

/-- A move to the front is tried like a move of the action before it to the back. -/
theorem up_eq_down (w : Workflow) (index : Int) : w.up index = w.down (index - 1) := by
  rw [up, down, moveUp?_eq_moveDown?]

/-- Moves to the front permute the actions, whether they take place or not. -/
theorem perm_upAll (w : Workflow) (indices : List Int) :
    (w.upAll indices).2.label = w.label ∧ (w.upAll indices).2.actions.Perm w.actions := by
  induction indices generalizing w with
  | nil => exact ⟨rfl, .refl _⟩
  | cons index rest ih =>
    obtain ⟨hlabel, hactions⟩ := ih (w.up index).2
    rw [up_eq_down] at hlabel hactions
    obtain ⟨hlabel', hactions'⟩ := perm_down w (index - 1)
    rw [upAll, up_eq_down]
    exact ⟨hlabel.trans hlabel', hactions.trans hactions'⟩

/-- Exchanges at positions are moves to the front from the next positions, all of which take
place. -/
theorem upAll_of_exchangeAll? {positions : List Nat} {actions : List Action}
    (h : exchangeAll? positions w.actions = some actions) :
    w.upAll (positions.map fun n : Nat => (n : Int) + 1) =
      (positions.map fun _ => true, { w with actions := actions }) := by
  induction positions generalizing w with
  | nil =>
    cases h
    rfl
  | cons n rest ih =>
    rw [exchangeAll?_cons] at h
    obtain ⟨next, hfirst, hrest⟩ := Option.bind_eq_some_iff.mp h
    have hmoved : w.moveDown? n = some { w with actions := next } := by
      rw [moveDown?, if_neg (by omega), Int.toNat_natCast, hfirst]
      rfl
    have hup : w.up ((n : Int) + 1) = (true, { w with actions := next }) := by
      rw [up_eq_down, Int.add_sub_cancel]
      exact tried_eq_true_iff.mpr hmoved
    have hnext := ih (w := { w with actions := next }) hrest
    simp only [List.map_cons, upAll, hup, hnext]

/-- **Moves reach every order, and each can be taken back.** A move takes place exactly when an
action is at both positions, whatever number is given as index, and exchanges the two; a move that
does not take place leaves the workflow. A move to the front is taken back by a move to the back
from the position in front, and a move to the back by a move to the front from the position behind.
Moves to the front permute the actions, and lead to every permutation of them by moves that all
take place. -/
theorem moves_reach_every_order (w : Workflow) :
    (∀ index : Int,
      ((w.up index).1 = true ↔ w.HasPosition (index - 1) ∧ w.HasPosition index) ∧
        ((w.down index).1 = true ↔ w.HasPosition index ∧ w.HasPosition (index + 1)) ∧
        ((w.up index).1 = false → (w.up index).2 = w) ∧
        ((w.down index).1 = false → (w.down index).2 = w) ∧
        ((w.up index).1 = true → w.IsExchangedAt (index - 1) (w.up index).2 ∧
          (w.up index).2.down (index - 1) = (true, w)) ∧
        ((w.down index).1 = true → w.IsExchangedAt index (w.down index).2 ∧
          (w.down index).2.up (index + 1) = (true, w))) ∧
      (∀ indices : List Int,
        (w.upAll indices).2.label = w.label ∧ (w.upAll indices).2.actions.Perm w.actions) ∧
        ∀ actions : List Action, actions.Perm w.actions →
          ∃ indices : List Int, (w.upAll indices).2 = { w with actions := actions } ∧
            ∀ answer ∈ (w.upAll indices).1, answer = true := by
  have hdown (index : Int) (htrue : (w.down index).1 = true) :
      w.IsExchangedAt index (w.down index).2 ∧ (w.down index).2.down index = (true, w) := by
    obtain ⟨w', hw'⟩ := Option.isSome_iff_exists.mp htrue
    have hresult : (w.down index).2 = w' := by rw [down, hw']; rfl
    have hexchanged := moveDown?_eq_some_iff.mp hw'
    rw [hresult]
    exact ⟨hexchanged, tried_eq_true_iff.mpr (moveDown?_eq_some_iff.mpr hexchanged.symm)⟩
  refine ⟨fun index => ⟨?_, isSome_moveDown?, tried_of_refused, tried_of_refused, ?_, ?_⟩,
    w.perm_upAll, ?_⟩
  · rw [up_eq_down]
    have h : (w.down (index - 1)).1 = true ↔ _ := isSome_moveDown?
    rwa [Int.sub_add_cancel] at h
  · rw [up_eq_down]
    exact hdown (index - 1)
  · rw [up_eq_down, Int.add_sub_cancel]
    exact hdown index
  · intro actions hperm
    obtain ⟨positions, hpositions⟩ := exists_exchangeAll?_of_perm hperm.symm
    refine ⟨_, congrArg Prod.snd (upAll_of_exchangeAll? hpositions), ?_⟩
    rw [upAll_of_exchangeAll? hpositions]
    simp

end Workflow

end PushButton
