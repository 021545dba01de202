import PushButton.Proofs.Json.Symbols
import PushButton.Proofs.Json.Written
import PushButton.Workflow.Stored

/-!
# The stored form is read back

A workflow whose parameters have distinct names is read back from its stored form. An action
without parameters and one whose parameters are empty have different stored forms, so the two are
kept apart. The text of a plain workflow is plain.
-/

namespace PushButton

/-- The names of the parameters of an action are distinct. -/
def Action.HasDistinctNames (a : Action) : Prop := ∀ ps ∈ a.params, (Json.keys ps).Nodup

/-- The names of the parameters of every action are distinct. -/
def Workflow.HasDistinctNames (w : Workflow) : Prop := ∀ a ∈ w.actions, a.HasDistinctNames

/-- The kinds of actions have plain names. -/
theorem ActionKind.all_isChar_name (k : ActionKind) : k.name.all Symbol.isChar = true := by
  cases k <;> decide

/-! ## The JSON value -/

namespace Action

/-- The parameters as a JSON object. -/
def paramsJson (ps : List (Text × Text)) : Json :=
  .object (ps.map fun (name, value) => (name, .text value))

/-- The stored form of parameters with distinct names is exact. -/
theorem isExact_paramsJson {ps : List (Text × Text)} (h : (Json.keys ps).Nodup) (room : Nat) :
    (paramsJson ps).IsExact (room + 1) := by
  refine .object (by simpa [Json.keys, Function.comp_def] using h) ?_
  intro f hf
  obtain ⟨p, -, rfl⟩ := List.mem_map.mp hf
  exact .text _

/-- The stored form of an action with distinct names is exact. -/
theorem HasDistinctNames.isExact_toJson {a : Action} (h : a.HasDistinctNames) (room : Nat) :
    a.toJson.IsExact (room + 2) := by
  unfold toJson
  cases hparams : a.params with
  | none =>
    have hkeys : ([("id" : Text), "type"] : List Text).Nodup := by decide
    refine .object hkeys ?_
    intro f hf
    simp only [List.mem_cons, List.not_mem_nil, or_false] at hf
    rcases hf with rfl | rfl
    · exact .text _
    · exact .text _
  | some ps =>
    have hkeys : ([("id" : Text), "type", "params"] : List Text).Nodup := by decide
    refine .object hkeys ?_
    intro f hf
    simp only [List.cons_append, List.nil_append, List.mem_cons, List.not_mem_nil, or_false] at hf
    rcases hf with rfl | rfl | rfl
    · exact .text _
    · exact .text _
    · exact isExact_paramsJson (h ps hparams) room

end Action

/-- The stored form of a workflow with distinct names is exact. -/
theorem Workflow.HasDistinctNames.isExact_toJson {w : Workflow} (h : w.HasDistinctNames)
    (room : Nat) : w.toJson.IsExact (room + 4) := by
  have hkeys : ([("buttonLabel" : Text), "actions"] : List Text).Nodup := by decide
  refine .object hkeys ?_
  intro f hf
  simp only [List.mem_cons, List.not_mem_nil, or_false] at hf
  rcases hf with rfl | rfl
  · exact .text _
  · refine .array ?_
    intro v hv
    obtain ⟨a, ha, rfl⟩ := List.mem_map.mp hv
    exact (h a ha).isExact_toJson room

/-! ## The checks -/

namespace Checked

/-- The parameters in their stored form are put one after the other. -/
theorem paramsOf_ofFields (ps : List (Text × Text)) :
    paramsOf (Datum.ofFields (ps.map fun (name, value) => (name, .text value))) =
      Json.collect ps := by
  have hfold (acc : List (Text × Text)) :
      (Datum.ofFields (ps.map fun (name, value) => (name, Json.text value))).foldl putParam acc =
        ps.foldl (fun acc (k, v) => Json.put k v acc) acc := by
    induction ps generalizing acc with
    | nil => rfl
    | cons p rest ih =>
      simp only [List.map_cons, Datum.ofFields, List.foldl_cons]
      exact ih _
  exact hfold []

/-- Parameters that are texts are written as they are. -/
theorem isUnwritableParam_ofFields (ps : List (Text × Text)) :
    (Datum.ofFields (ps.map fun (name, value) => (name, .text value))).any isUnwritableParam =
      false := by
  induction ps with
  | nil => rfl
  | cons p rest ih => exact ih

/-- Parameters with distinct names pass the check as they are. -/
theorem params_ofJson {ps : List (Text × Text)} (h : (Json.keys ps).Nodup) :
    params (Datum.ofJson (Action.paramsJson ps)) = .ok (some ps) := by
  rw [Action.paramsJson, Datum.ofJson, params, isUnwritableParam_ofFields,
    if_neg Bool.false_ne_true, paramsOf_ofFields, Json.collect_of_nodup h]

/-- The name of a kind passes the check. -/
theorem kind_name (k : ActionKind) : kind (.text k.name) = .ok k := by
  unfold kind
  simp only [k.all_isChar_name, if_true, k.ofName?_name]

/-- A mapping whose parts pass their checks is an action. -/
theorem action_map {entries : List (Datum × Datum)} {i : Text} {k : ActionKind}
    {ps : Option (List (Text × Text))} (hid : required "id" id entries = .ok i)
    (hkind : required "type" kind entries = .ok k)
    (hparams : optional "params" params none entries = .ok ps) :
    action (.map entries) = .ok ⟨i, k, ps⟩ := by
  simp only [action, hid, hkind, hparams]
  rfl

/-- A field that passes its check is the value of the part. -/
theorem under_ok {α : Type} {place : Place} {c : Checked α} {x : α} (h : c = .ok x) :
    under place c = .ok x := by
  rw [h]
  rfl

/-- An action in its stored form passes the check as it is. -/
theorem action_ofJson {a : Action} (h : a.HasDistinctNames) :
    action (Datum.ofJson a.toJson) = .ok a := by
  obtain ⟨i, k, ps⟩ := a
  cases ps with
  | none => exact action_map rfl (under_ok (kind_name k)) rfl
  | some ps => exact action_map rfl (under_ok (kind_name k)) (under_ok (params_ofJson (h ps rfl)))

/-- Actions in their stored form pass the check as they are. -/
theorem items_ofItems {as : List Action} (h : ∀ a ∈ as, a.HasDistinctNames) (index : Nat) :
    items action index (Datum.ofItems (as.map Action.toJson)) = .ok as := by
  induction as generalizing index with
  | nil => rfl
  | cons a rest ih =>
    have hfirst := action_ofJson (h a (by simp))
    have hrest := ih (fun b hb => h b (by simp [hb])) (index + 1)
    simp only [List.map_cons, Datum.ofItems, items, hfirst, hrest]
    rfl

end Checked

namespace Workflow

/-- A mapping whose parts pass their checks describes a workflow. -/
theorem ofDatum_map {entries : List (Datum × Datum)} {l : Text} {as : List Action}
    (hlabel : Checked.label entries = .ok l)
    (hactions : Checked.optional "actions" Checked.actions [] entries = .ok as) :
    ofDatum (.map entries) = .ok ⟨l, as⟩ := by
  simp only [ofDatum, hlabel, hactions]
  rfl

/-- The stored form of a workflow with distinct names describes it. -/
theorem HasDistinctNames.ofJson_toJson {w : Workflow} (h : w.HasDistinctNames) :
    ofJson w.toJson = .ok w :=
  ofDatum_map rfl (Checked.under_ok (Checked.items_ofItems h 0))

/-- **A dumped workflow is read back.** With every indent, the text of a workflow with distinct
names holds that workflow. -/
theorem HasDistinctNames.parse_dump {w : Workflow} (h : w.HasDistinctNames) (indent : Option Int) :
    parse (w.dump indent) = .ok w := by
  have hparse : Json.parse (w.dump indent) = .ok w.toJson :=
    Json.parse_write rfl (h.isExact_toJson 956)
  rw [parse, hparse]
  dsimp only
  rw [h.ofJson_toJson]
  rfl

end Workflow

/-! ## Plain workflows -/

/-- There is no half of a surrogate pair in the id and the parameters of an action. -/
def Action.IsPlain (a : Action) : Prop :=
  a.id.IsPlain ∧ ∀ ps ∈ a.params, ∀ p ∈ ps, p.1.IsPlain ∧ p.2.IsPlain

/-- There is no half of a surrogate pair in the label and the actions of a workflow. -/
def Workflow.IsPlain (w : Workflow) : Prop := w.label.IsPlain ∧ ∀ a ∈ w.actions, a.IsPlain

/-- The texts in the stored form of a plain action are plain. -/
theorem Action.IsPlain.allTexts_toJson {a : Action} (h : a.IsPlain) :
    a.toJson.AllTexts Text.IsPlain := by
  obtain ⟨hid, hparams⟩ := h
  have hkind : a.kind.name.IsPlain := List.all_eq_true.mp a.kind.all_isChar_name
  unfold toJson
  cases hps : a.params with
  | none =>
    refine .object ?_ ?_
    · exact List.forall_mem_cons.mpr
        ⟨Text.isPlain_ofString _, List.forall_mem_singleton.mpr (Text.isPlain_ofString _)⟩
    · exact List.forall_mem_cons.mpr ⟨.text hid, List.forall_mem_singleton.mpr (.text hkind)⟩
  | some ps =>
    have hfields : (paramsJson ps).AllTexts Text.IsPlain := by
      refine .object ?_ ?_
      · intro f hf
        obtain ⟨p, hp, rfl⟩ := List.mem_map.mp hf
        exact (hparams ps hps p hp).1
      · intro f hf
        obtain ⟨p, hp, rfl⟩ := List.mem_map.mp hf
        exact .text (hparams ps hps p hp).2
    refine .object ?_ ?_
    · exact List.forall_mem_cons.mpr ⟨Text.isPlain_ofString _, List.forall_mem_cons.mpr
        ⟨Text.isPlain_ofString _, List.forall_mem_singleton.mpr (Text.isPlain_ofString _)⟩⟩
    · exact List.forall_mem_cons.mpr ⟨.text hid,
        List.forall_mem_cons.mpr ⟨.text hkind, List.forall_mem_singleton.mpr hfields⟩⟩

/-- The texts in the stored form of a plain workflow are plain. -/
theorem Workflow.IsPlain.allTexts_toJson {w : Workflow} (h : w.IsPlain) :
    w.toJson.AllTexts Text.IsPlain := by
  refine .object ?_ ?_
  · exact List.forall_mem_cons.mpr
      ⟨Text.isPlain_ofString _, List.forall_mem_singleton.mpr (Text.isPlain_ofString _)⟩
  · refine List.forall_mem_cons.mpr ⟨.text h.1, List.forall_mem_singleton.mpr (.array ?_)⟩
    intro v hv
    obtain ⟨a, ha, rfl⟩ := List.mem_map.mp hv
    exact (h.2 a ha).allTexts_toJson

/-- A plain workflow is dumped to plain text. -/
theorem Workflow.IsPlain.dump {w : Workflow} (h : w.IsPlain) (indent : Option Int) :
    (w.dump indent).IsPlain := by
  exact h.allTexts_toJson.isPlain_writeAt rfl 1

end PushButton
