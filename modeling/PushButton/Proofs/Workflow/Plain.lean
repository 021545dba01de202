import PushButton.Proofs.Text.Plain
import PushButton.Proofs.Workflow.Made

/-!
# Editing plain workflows

A workflow without halves of surrogate pairs stays so when it is edited with plain texts: a new
action has a number as its id and some of the parameters that it is given, and everything else only
takes actions away or puts them in another order.
-/

namespace PushButton

/-- A new action is plain if its id and the texts that it is given are. -/
theorem Action.isPlain_make {id : Text} (kind : ActionKind) {given : List (Text × Json)}
    (hid : id.IsPlain) (h : ∀ p ∈ given, p.1.IsPlain ∧ ∃ t : Text, p.2 = .text t ∧ t.IsPlain) :
    (make id kind given).IsPlain := by
  refine ⟨hid, fun ps hps p hp => ?_⟩
  obtain ⟨rfl, -⟩ := mem_params_make_iff.mp hps
  obtain ⟨⟨name, value⟩, hgiven, hkeeps⟩ := List.mem_filterMap.mp hp
  obtain ⟨hname, t, rfl, hplain⟩ := h _ hgiven
  dsimp only at hkeeps
  split at hkeeps
  · cases hkeeps
    exact ⟨hname, hplain⟩
  · cases hkeeps

/-- A description is plain: what an action was given stands between quotes. -/
theorem Action.isPlain_describe (a : Action) : a.describe.IsPlain := by
  have hname : a.kind.name.IsPlain := List.all_eq_true.mp a.kind.all_isChar_name
  have hparameters : ∀ name ∈ a.kind.parameters, name.IsPlain := by
    cases a.kind <;> decide
  have hgiven : ∀ p ∈ a.given, p.1.IsPlain := by
    intro p hp
    obtain ⟨name, hmem, rfl⟩ := List.mem_map.mp (List.mem_filter.mp hp).1
    exact hparameters name hmem
  unfold describe
  split
  · exact hname
  · simp only [Text.isPlain_append, hname, Text.isPlain_ofString, true_and, and_true]
    refine Text.isPlain_join (Text.isPlain_ofString ", ") fun part hpart => ?_
    obtain ⟨p, hp, rfl⟩ := List.mem_map.mp hpart
    simp [hgiven p hp]

namespace Workflow

variable {w w' : Workflow}

/-- A workflow with actions of a plain one is plain if its label is. -/
theorem IsPlain.of_subset (h : w.IsPlain) (hlabel : w'.label = w.label)
    (hsubset : ∀ a ∈ w'.actions, a ∈ w.actions) : w'.IsPlain :=
  ⟨hlabel ▸ h.1, fun a ha => h.2 a (hsubset a ha)⟩

/-- Another plain label leaves a workflow plain. -/
theorem IsPlain.relabel (h : w.IsPlain) {label : Text} (hlabel : label.IsPlain) :
    (w.relabel label).IsPlain := ⟨hlabel, h.2⟩

/-- Another plain action leaves a workflow plain. -/
theorem IsPlain.add (h : w.IsPlain) {a : Action} (ha : a.IsPlain) : (w.add a).IsPlain := by
  refine ⟨h.1, fun b hb => ?_⟩
  rcases List.mem_append.mp hb with hb | hb
  · exact h.2 b hb
  · rwa [List.mem_singleton.mp hb]

/-- Removing actions leaves a workflow plain. -/
theorem IsPlain.remove? (h : w.IsPlain) {id : Text} (hw' : w.remove? id = some w') :
    w'.IsPlain := by
  unfold Workflow.remove? at hw'
  split at hw'
  · cases hw'
    exact h.of_subset rfl fun a ha => (List.mem_filter.mp ha).1
  · cases hw'

/-- Moving an action to the back leaves a workflow plain. -/
theorem IsPlain.moveDown? (h : w.IsPlain) {index : Int} (hw' : w.moveDown? index = some w') :
    w'.IsPlain := by
  obtain ⟨hlabel, hactions⟩ := (moveDown?_eq_some_iff.mp hw').perm
  exact h.of_subset hlabel fun a ha => hactions.mem_iff.mp ha

/-- Moving an action to the front leaves a workflow plain. -/
theorem IsPlain.moveUp? (h : w.IsPlain) {index : Int} (hw' : w.moveUp? index = some w') :
    w'.IsPlain := by
  rw [moveUp?_eq_moveDown?] at hw'
  exact h.moveDown? hw'

/-- Removing all actions leaves a workflow plain. -/
theorem IsPlain.clear (h : w.IsPlain) : w.clear.IsPlain :=
  h.of_subset rfl fun _ ha => absurd ha List.not_mem_nil

end Workflow

end PushButton
