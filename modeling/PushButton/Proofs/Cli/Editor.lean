import PushButton.Cli.Editing
import PushButton.Proofs.Storage.InPlace
import PushButton.Proofs.Workflow.Made

/-!
# An editor in memory

An editor holds one workflow and changes it by operations; an operation that finds nothing to change
leaves it. A desk is where the workflow is kept: a file, a key in it, and the items under the other
keys. A workflow that the file cannot take is not edited to. Whatever the operation, the items that
keep the workflow keep it again when the text of the new workflow is put among them.
-/

namespace PushButton

namespace Cli

/-- What is done to a workflow. -/
inductive Operation where
  /-- It gets another label. -/
  | relabel (label : Text)
  /-- It gets an action of a kind with parameters, each with its name and an equals sign. -/
  | add (kind : Text) (params : List Text)
  /-- It loses the actions with an id. -/
  | remove (id : Text)
  /-- An action moves to the front. -/
  | moveUp (index : Int)
  /-- An action moves to the back. -/
  | moveDown (index : Int)
  /-- It loses all actions. -/
  | clear
  /-- A new workflow takes its place, which is not kept. -/
  | renew
  /-- Another workflow takes its place. -/
  | replace (w : Workflow)
deriving DecidableEq, Repr

/-- Where a workflow is kept. -/
structure Desk where
  /-- The file. -/
  path : Path
  /-- The key. -/
  key : Text
  /-- The label of a new workflow. -/
  label : Text
  /-- The items under other keys. -/
  others : StoredItems

/-- The file can take a workflow: no key and no text in it has half of a surrogate pair. -/
def Desk.Takes (d : Desk) (w : Workflow) : Prop :=
  Storage.ArePlain d.others ∧ d.key.IsPlain ∧ (w.dump none).IsPlain

instance (d : Desk) (w : Workflow) : Decidable (d.Takes w) :=
  inferInstanceAs (Decidable (_ ∧ _ ∧ _))

/-- An editor. -/
structure Editor where
  /-- The workflow. -/
  workflow : Workflow
  /-- The workflow is kept: it was found, or an operation was made since it was new. -/
  isKept : Bool
  /-- The number of action ids that were given. -/
  ids : Nat
deriving DecidableEq, Repr

namespace Editor

/-- The workflow where it is kept. -/
def kept? (e : Editor) : Option Workflow := if e.isKept then some e.workflow else none

/-- An editor for the workflow that is found, or else for a new one. -/
def opened (d : Desk) (found : Option Workflow) (ids : Nat) : Editor :=
  ⟨found.getD (.new d.label), found.isSome, ids⟩

/-- The editor with another workflow, if it can be kept. -/
def offer (d : Desk) (e : Editor) (w : Workflow) : Editor :=
  if d.Takes w then { e with workflow := w, isKept := true } else e

/-- The editor with another workflow, where there is one. -/
def offer? (d : Desk) (e : Editor) (w : Option Workflow) : Editor := (w.map (e.offer d)).getD e

/-- The editor after an operation. A new action takes the next id. -/
def apply (d : Desk) (e : Editor) : Operation → Editor
  | .relabel label => e.offer d (e.workflow.relabel label)
  | .add kind params =>
    match Job.paramsOf params, Workflow.kindOf kind with
    | .ok params, .ok kind =>
      let a := Action.make (Action.idOf (e.ids + 1)) kind params
      { e with ids := e.ids + 1 }.offer d (e.workflow.add a)
    | _, _ => e
  | .remove id => e.offer? d (e.workflow.remove? id)
  | .moveUp index => e.offer? d (e.workflow.moveUp? index)
  | .moveDown index => e.offer? d (e.workflow.moveDown? index)
  | .clear => e.offer d e.workflow.clear
  | .renew => if Storage.ArePlain d.others then ⟨.new d.label, false, e.ids⟩ else e
  | .replace w => e.offer d w

/-- The editor after operations, one after the other. -/
def applyAll (d : Desk) (e : Editor) (ops : List Operation) : Editor := ops.foldl (apply d) e

/-- The ids of an editor when a workflow is offered to it. -/
@[simp] theorem ids_offer (d : Desk) (e : Editor) (w : Workflow) : (e.offer d w).ids = e.ids := by
  unfold offer
  split <;> rfl

/-- The ids of an editor when its workflow is renewed. -/
@[simp] theorem ids_apply_renew (d : Desk) (e : Editor) : (e.apply d .renew).ids = e.ids := by
  rw [apply]
  split <;> rfl

/-! ## Items that keep the workflow -/

/-- Items keep the workflow of an editor at a desk. -/
structure IsIn (d : Desk) (e : Editor) (items : StoredItems) : Prop where
  /-- Under other keys is what the desk says. -/
  others : items.filter (·.1 ≠ d.key) = d.others
  /-- Under the key is a text of the workflow, or nothing when it is not kept. -/
  text : (Json.lookup d.key items).map Workflow.parse = e.kept?.map .ok
  /-- A workflow that is not kept is new. -/
  new : e.isKept = false → e.workflow = .new d.label
  /-- The workflow was read or edited. -/
  made : e.workflow.Made

variable {d : Desk} {e : Editor} {items : StoredItems}

/-- The number of ids makes no difference to the items. -/
theorem IsIn.ids (h : e.IsIn d items) (ids : Nat) : IsIn d { e with ids := ids } items :=
  ⟨h.others, h.text, h.new, h.made⟩

/-- When the text of another workflow is put under the key, the items keep that workflow; the text
is put when the workflow is taken. -/
theorem IsIn.offer (h : e.IsIn d items) (hkeys : (Json.keys items).Nodup) {w : Workflow}
    (hw : w.Made) :
    (e.offer d w).IsIn d (if Storage.ArePlain (Json.put d.key (w.dump none) items) then
      Json.put d.key (w.dump none) items else items) := by
  have htakes : Storage.ArePlain (Json.put d.key (w.dump none) items) ↔ d.Takes w := by
    rw [Storage.arePlain_put hkeys, h.others]
    rfl
  rw [Editor.offer]
  by_cases hw' : d.Takes w
  · rw [if_pos hw', if_pos (htakes.mpr hw')]
    refine ⟨(Json.filter_put _ _ _).trans h.others, ?_, nofun, hw⟩
    rw [Json.lookup_put, if_pos rfl]
    simp [kept?, hw.hasDistinctNames.parse_dump none]
  · rw [if_neg hw', if_neg fun hplain => hw' (htakes.mp hplain)]
    exact h

/-- When the key is removed, the items keep a new workflow; it is removed when the other items are
plain. -/
theorem IsIn.renew (h : e.IsIn d items) :
    (e.apply d .renew).IsIn d (if Storage.ArePlain (items.filter (·.1 ≠ d.key)) then
      items.filter (·.1 ≠ d.key) else items) := by
  rw [apply, h.others]
  split
  · have hsame : d.others.filter (·.1 ≠ d.key) = d.others := by
      rw [← h.others, List.filter_filter]
      simp
    refine ⟨hsame, ?_, fun _ => rfl, .new d.label⟩
    rw [← h.others, Json.lookup_filter, if_pos rfl]
    rfl
  · exact h

/-- What is found under the key is the workflow where it is kept. -/
theorem IsIn.loadWorkflow (h : e.IsIn d items) {fs : Files}
    (hitems : (⟨.file d.path, fs⟩ : Shelf).items = .ok items) :
    (⟨.file d.path, fs⟩ : Shelf).loadWorkflow d.key = .ok e.kept? := by
  have htext := h.text
  rw [Shelf.loadWorkflow, Shelf.get?, hitems, Except.map]
  cases hlookup : Json.lookup d.key items with
  | none =>
    rw [hlookup] at htext
    cases hkept : e.kept? with
    | none => rfl
    | some w => rw [hkept] at htext; cases htext
  | some t =>
    rw [hlookup] at htext
    cases hkept : e.kept? with
    | none => rw [hkept] at htext; cases htext
    | some w =>
      rw [hkept] at htext
      dsimp only
      rw [Option.some.inj htext]

/-- The workflow of an editor is the one that is kept, or else a new one. -/
theorem IsIn.getD_kept? (h : e.IsIn d items) : e.kept?.getD (.new d.label) = e.workflow := by
  unfold kept?
  split
  · rfl
  · next hkept => exact (h.new (by simpa using hkept)).symm

/-- What is found under the key stands there as a text. -/
theorem text_of_loadWorkflow {fs : Files} (hitems : (⟨.file d.path, fs⟩ : Shelf).items = .ok items)
    {found : Option Workflow}
    (hfound : (⟨.file d.path, fs⟩ : Shelf).loadWorkflow d.key = .ok found) :
    (Json.lookup d.key items).map Workflow.parse = found.map .ok := by
  rw [Shelf.loadWorkflow, Shelf.get?, hitems, Except.map] at hfound
  cases hlookup : Json.lookup d.key items with
  | none =>
    rw [hlookup] at hfound
    cases hfound
    rfl
  | some t =>
    rw [hlookup] at hfound
    dsimp only at hfound
    split at hfound
    · cases hfound
    · next w hparse =>
      cases hfound
      rw [Option.map_some, hparse]
      rfl

/-- Items keep the workflow that is found in them. -/
theorem isIn_opened {fs : Files} (hitems : (⟨.file d.path, fs⟩ : Shelf).items = .ok items)
    (hothers : items.filter (·.1 ≠ d.key) = d.others) {found : Option Workflow}
    (hfound : (⟨.file d.path, fs⟩ : Shelf).loadWorkflow d.key = .ok found) (ids : Nat) :
    (opened d found ids).IsIn d items := by
  have htext := text_of_loadWorkflow hitems hfound
  cases found with
  | none => exact ⟨hothers, htext, fun _ => rfl, .new d.label⟩
  | some w =>
    obtain ⟨t, -, hparse⟩ := Option.map_eq_some_iff.mp htext
    exact ⟨hothers, htext, nofun, .parsed hparse⟩

end Editor

end Cli

end PushButton
