import PushButton.Proofs.Results
import PushButton.Proofs.Workflow.Exchanges
import PushButton.Proofs.Workflow.Stored
import PushButton.Workflow.Loaded

/-!
# Workflows that are made

However a workflow is made, read from a text, from data or from a file, or edited, the names of the
parameters of each action are distinct: a mapping gives a repeated name its last value in its first
place, and editing keeps some of the names that it is given.
-/

namespace PushButton

/-- A workflow that was read or edited. The names of the parameters that are given to a new action
are distinct. -/
inductive Workflow.Made : Workflow → Prop
  /-- Read from a text. -/
  | parsed {t : Text} {w : Workflow} : parse t = .ok w → Made w
  /-- Read from data. -/
  | described {d : Datum} {w : Workflow} : ofDatum d = .ok w → Made w
  /-- Read from a file. -/
  | loaded {fs : Files} {p : Path} {w : Workflow} : load fs p = .ok w → Made w
  /-- Begun with a label. -/
  | new (label : Text) : Made (new label)
  /-- Given another label. -/
  | relabelled {w : Workflow} (label : Text) : Made w → Made (w.relabel label)
  /-- Given another action. -/
  | added {w : Workflow} (id : Text) (kind : ActionKind) {given : List (Text × Json)} :
      (Json.keys given).Nodup → Made w → Made (w.add (Action.make id kind given))
  /-- Without the actions of an id. -/
  | removed {w w' : Workflow} {id : Text} : w.remove? id = some w' → Made w → Made w'
  /-- With an action moved to the front. -/
  | movedUp {w w' : Workflow} {index : Int} : w.moveUp? index = some w' → Made w → Made w'
  /-- With an action moved to the back. -/
  | movedDown {w w' : Workflow} {index : Int} : w.moveDown? index = some w' → Made w → Made w'
  /-- Without actions. -/
  | cleared {w : Workflow} : Made w → Made w.clear

/-! ## Reading -/

namespace Checked

/-- The parameters of a mapping have distinct names. -/
theorem nodup_keys_paramsOf (entries : List (Datum × Datum)) :
    (Json.keys (paramsOf entries)).Nodup := by
  have hfold (acc : List (Text × Text)) (h : (Json.keys acc).Nodup) :
      (Json.keys (entries.foldl putParam acc)).Nodup := by
    induction entries generalizing acc with
    | nil => exact h
    | cons e rest ih =>
      rw [List.foldl_cons]
      refine ih _ ?_
      unfold putParam
      split
      · exact h
      · exact Json.nodup_keys_put h _ _
  exact hfold [] List.nodup_nil

/-- Parameters that pass the check have distinct names. -/
theorem nodup_keys_of_params {d : Datum} {ps : List (Text × Text)} (h : params d = .ok (some ps)) :
    (Json.keys ps).Nodup := by
  unfold params at h
  split at h
  · cases h
  · split at h
    · cases h
    · cases h
      exact nodup_keys_paramsOf _
  · cases h

/-- What passes a check below a place passes the check. -/
theorem of_under_eq_ok {α : Type} {place : Place} {c : Checked α} {x : α}
    (h : under place c = .ok x) : c = .ok x := of_mapError_eq_ok h

/-- Where two checks are passed, each of them is. -/
theorem of_both_eq_ok {α β : Type} {a : Checked α} {b : Checked β} {x : α} {y : β}
    (h : both a b = .ok (x, y)) : a = .ok x ∧ b = .ok y := by
  cases a with
  | error ps => cases b <;> cases h
  | ok x' =>
    cases b with
    | error ps => cases h
    | ok y' =>
      cases h
      exact ⟨rfl, rfl⟩

/-- The parameters of an action that passes the check are those of its field. -/
theorem optional_params_of_action {entries : List (Datum × Datum)} {a : Action}
    (h : action (.map entries) = .ok a) : optional "params" params none entries = .ok a.params := by
  obtain ⟨⟨i, k, ps⟩, hparts, rfl⟩ := exists_of_map_eq_ok h
  obtain ⟨-, hrest⟩ := of_both_eq_ok hparts
  exact (of_both_eq_ok hrest).2

/-- An action that passes the check has parameters with distinct names. -/
theorem hasDistinctNames_of_action {d : Datum} {a : Action} (h : action d = .ok a) :
    a.HasDistinctNames := by
  cases d with
  | map entries =>
    have hparams := optional_params_of_action h
    intro ps hps
    rw [hps] at hparams
    unfold optional at hparams
    split at hparams
    · exact nodup_keys_of_params (of_under_eq_ok hparams)
    · cases hparams
  | _ => cases h

/-- Actions that pass the check have parameters with distinct names. -/
theorem hasDistinctNames_of_items {ds : List Datum} {index : Nat} {as : List Action}
    (h : items action index ds = .ok as) : ∀ a ∈ as, a.HasDistinctNames := by
  induction ds generalizing index as with
  | nil =>
    cases h
    simp
  | cons d rest ih =>
    obtain ⟨⟨b, bs⟩, hboth, rfl⟩ := exists_of_map_eq_ok h
    obtain ⟨hfirst, hrest⟩ := of_both_eq_ok hboth
    intro a ha
    rcases List.mem_cons.mp ha with rfl | ha
    · exact hasDistinctNames_of_action (of_under_eq_ok hfirst)
    · exact ih hrest a ha

/-- The actions of a document have parameters with distinct names. -/
theorem hasDistinctNames_of_actions {d : Datum} {as : List Action} (h : actions d = .ok as) :
    ∀ a ∈ as, a.HasDistinctNames := by
  unfold actions at h
  split at h
  · exact hasDistinctNames_of_items h
  · exact hasDistinctNames_of_items h
  · cases h

end Checked

namespace Workflow

/-- A workflow that data describe has distinct names. -/
theorem hasDistinctNames_of_ofDatum {d : Datum} {w : Workflow} (h : ofDatum d = .ok w) :
    w.HasDistinctNames := by
  unfold ofDatum at h
  split at h
  · next entries =>
    dsimp only at h
    split at h
    · next l as hboth =>
      cases h
      obtain ⟨-, hactions⟩ := Checked.of_both_eq_ok hboth
      unfold Checked.optional at hactions
      split at hactions
      · exact Checked.hasDistinctNames_of_actions (Checked.of_under_eq_ok hactions)
      · cases hactions
        exact fun _ ha => absurd ha (by simp)
    · cases h
  · cases h

/-- A workflow that is read from a text has distinct names. -/
theorem hasDistinctNames_of_parse {t : Text} {w : Workflow} (h : parse t = .ok w) :
    w.HasDistinctNames := by
  unfold parse at h
  split at h
  · cases h
  · exact hasDistinctNames_of_ofDatum (of_mapError_eq_ok h)

/-- A workflow that is read from the bytes of a file has distinct names. -/
theorem hasDistinctNames_of_ofBytes {bytes : Bytes} {w : Workflow} (h : ofBytes bytes = .ok w) :
    w.HasDistinctNames := by
  obtain ⟨text, -, htext⟩ := exists_of_bind_eq_ok h
  obtain ⟨data, -, hdata⟩ := exists_of_bind_eq_ok htext
  unfold ofDocument at hdata
  split at hdata
  · cases hdata
  · exact hasDistinctNames_of_ofDatum (of_mapError_eq_ok hdata)

/-- A workflow that is read from a file has distinct names. -/
theorem hasDistinctNames_of_load {fs : Files} {p : Path} {w : Workflow} (h : load fs p = .ok w) :
    w.HasDistinctNames := by
  unfold load at h
  split at h
  · cases h
  · obtain ⟨bytes, -, hbytes⟩ := exists_of_bind_eq_ok h
    exact hasDistinctNames_of_ofBytes hbytes

end Workflow

/-! ## Editing -/

namespace Action

/-- The text with which a kind keeps the value of a parameter, if it keeps it. -/
def keptText? (kind : ActionKind) (name : Text) : Json → Option Text
  | .null => none
  | v => if kind.parameters.contains name then some (Datum.ofJson v).shown else none

/-- A value of a parameter that the kind reads is kept. -/
theorem keptText?_of_mem {kind : ActionKind} {name : Text} (hname : name ∈ kind.parameters)
    {v : Json} (hv : v ≠ .null) : keptText? kind name v = some (Datum.ofJson v).shown := by
  have hread : kind.parameters.contains name = true := List.contains_iff_mem.mpr hname
  cases v with
  | null => exact absurd rfl hv
  | bool | int | float | text | array | object => exact if_pos hread

/-- Parameters are kept one by one. -/
theorem keptParams_eq (kind : ActionKind) (given : List (Text × Json)) :
    keptParams kind given =
      given.filterMap fun (name, v) => (keptText? kind name v).map fun t => (name, t) := by
  refine List.filterMap_congr fun p _ => ?_
  obtain ⟨name, v⟩ := p
  cases v with
  | null => rfl
  | bool | int | float | text | array | object =>
    dsimp only [keptText?]
    split <;> rfl

/-- The names of the parameters that a new action keeps are some of the given names, in their
order. -/
theorem keys_keptParams_sublist (kind : ActionKind) (given : List (Text × Json)) :
    (Json.keys (keptParams kind given)).Sublist (Json.keys given) := by
  rw [keptParams_eq]
  exact Json.keys_filterMap_sublist (keptText? kind) given

/-- A new action has distinct names if the names that are given are distinct. -/
theorem hasDistinctNames_make (id : Text) (kind : ActionKind) {given : List (Text × Json)}
    (h : (Json.keys given).Nodup) : (make id kind given).HasDistinctNames := by
  intro ps hps
  obtain ⟨rfl, -⟩ := mem_params_make_iff.mp hps
  exact (keys_keptParams_sublist kind given).nodup h

end Action

namespace Workflow

/-- Distinct names stay distinct when the actions are some of those that were there. -/
theorem HasDistinctNames.of_subset {w w' : Workflow} (h : w.HasDistinctNames)
    (hsubset : ∀ a ∈ w'.actions, a ∈ w.actions) : w'.HasDistinctNames :=
  fun a ha => h a (hsubset a ha)

/-- **A workflow that is made has distinct names.** The induction is on the way in which it is
made. -/
theorem Made.hasDistinctNames {w : Workflow} (h : w.Made) : w.HasDistinctNames := by
  induction h with
  | parsed h => exact hasDistinctNames_of_parse h
  | described h => exact hasDistinctNames_of_ofDatum h
  | loaded h => exact hasDistinctNames_of_load h
  | new label => exact fun _ ha => absurd ha (by simp [Workflow.new])
  | relabelled label _ ih => exact ih
  | @added w id kind given hgiven _ ih =>
    intro a ha
    rcases List.mem_append.mp ha with ha | ha
    · exact ih a ha
    · rw [List.mem_singleton.mp ha]
      exact Action.hasDistinctNames_make id kind hgiven
  | @removed w w' id hw' _ ih =>
    unfold remove? at hw'
    split at hw'
    · cases hw'
      exact ih.of_subset fun a ha => (List.mem_filter.mp ha).1
    · cases hw'
  | @movedUp w w' index hw' _ ih =>
    rw [moveUp?_eq_moveDown?] at hw'
    exact ih.of_subset fun a ha => (moveDown?_eq_some_iff.mp hw').perm.2.mem_iff.mp ha
  | @movedDown w w' index hw' _ ih =>
    exact ih.of_subset fun a ha => (moveDown?_eq_some_iff.mp hw').perm.2.mem_iff.mp ha
  | cleared _ _ => exact fun _ ha => absurd ha (by simp [clear])

end Workflow

end PushButton
