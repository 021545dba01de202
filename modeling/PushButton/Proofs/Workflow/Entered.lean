import PushButton.Proofs.Run.Parameters
import PushButton.Proofs.Workflow.Edits

/-!
# Workflows that are entered and workflows that are read

The same actions can be entered in an editor, one by one, or stand in a document that is read. Both
ways the values of parameters become texts, but not by the same rules: an editor writes only what
the kind reads, and writes truth values with a capital; a document is refused when any of its
parameters cannot be written, and truth values are read in small letters. Every other value that the
kind reads becomes the same text, so the two workflows run alike unless such a truth value is given.
-/

namespace PushButton

/-! ## Values -/

/-- An integer with too many digits stands in an object when it stands in one of its fields. -/
theorem Json.hasLongInt_object_iff {fields : List (Text × Json)} :
    (Json.object fields).HasLongInt ↔ ∃ f ∈ fields, f.2.HasLongInt := by
  constructor
  · intro h
    cases h with
    | @field _ name v hf hlong => exact ⟨(name, v), hf, hlong⟩
  · rintro ⟨⟨name, v⟩, hf, hlong⟩
    exact .field hf hlong

/-- The text of a value that is neither missing nor a truth value is the value as it is written. -/
theorem Json.paramText?_of_ne {v : Json} (hnull : v ≠ .null) (hbool : ∀ b, v ≠ .bool b) :
    v.paramText? = some (Datum.ofJson v).shown := by
  cases v with
  | null => exact absurd rfl hnull
  | bool b => exact absurd rfl (hbool b)
  | int | float | text | array | object => rfl

/-! ## Drafts -/

/-- What is said about an action: an id, a kind, and the values of parameters, each of them given
once. -/
structure Draft where
  /-- The id. -/
  id : Text
  /-- The kind. -/
  kind : ActionKind
  /-- The values under the names of parameters. -/
  given : List (Text × Json)
  /-- No name is given twice. -/
  distinct : (Json.keys given).Nodup

namespace Draft

/-- The draft as it stands in a document. -/
def toJson (d : Draft) : Json :=
  .object [("id", .text d.id), ("type", .text d.kind.name), ("params", .object d.given)]

/-- The document with a label and drafts. -/
def document (label : Text) (drafts : List Draft) : Json :=
  .object [("buttonLabel", .text label), ("actions", .array (drafts.map toJson))]

/-- Every parameter that the kind reads can be written. -/
def CanBeEntered (d : Draft) : Prop :=
  ∀ p ∈ d.given, p.1 ∈ d.kind.parameters → p.2.IsWritable

/-- Every parameter can be written. -/
def CanBeRead (d : Draft) : Prop := ∀ p ∈ d.given, p.2.IsWritable

/-- A parameter is given as a truth value. -/
def GivesTruth (d : Draft) (name : Text) : Prop := ∃ b, Json.lookup name d.given = some (.bool b)

instance (d : Draft) (name : Text) : Decidable (d.GivesTruth name) :=
  match h : Json.lookup name d.given with
  | some (.bool b) => isTrue ⟨b, h⟩
  | none | some .null | some (.int _) | some (.float _) | some (.text _) | some (.array _)
  | some (.object _) => isFalse fun ⟨_, hb⟩ => nomatch h.symm.trans hb

/-- An action that was entered and one that was read are of the kind of a draft, and they carry the
same values for the parameters that it reads, except for truth values: these are written with a
capital when they are entered, and in small letters when they are read. -/
structure Yields (d : Draft) (a a' : Action) : Prop where
  /-- The kind of the action that was entered. -/
  kind : a.kind = d.kind
  /-- The kind of the action that was read. -/
  kind' : a'.kind = d.kind
  /-- What is no truth value is the same. -/
  same : ∀ name ∈ d.kind.parameters, ¬ d.GivesTruth name → a.param name = a'.param name
  /-- A truth value is written in two ways. -/
  truth : ∀ name ∈ d.kind.parameters, ∀ b, Json.lookup name d.given = some (.bool b) →
    a.param name = (if b then "True" else "False") ∧
      a'.param name = (if b then "true" else "false")

/-- The action that is read from a draft. -/
def read (d : Draft) : Action := ⟨d.id, d.kind, some (Json.paramsOf d.given)⟩

/-- A parameter as it is entered. -/
theorem param_make (d : Draft) (id name : Text) :
    (Action.make id d.kind d.given).param name =
      ((Json.lookup name d.given).bind (Action.keptText? d.kind name)).getD [] := by
  unfold Action.param
  rw [Action.getD_params_make, Action.keptParams_eq, Json.lookup_filterMap _ d.distinct]

/-- A parameter as it is read. -/
theorem param_read (d : Draft) (name : Text) :
    d.read.param name = ((Json.lookup name d.given).bind Json.paramText?).getD [] := by
  have hdistinct := (Json.keys_filterMap_sublist (fun _ v => Json.paramText? v) d.given).nodup
    d.distinct
  have hlookup : Json.lookup name (Json.paramsOf d.given) =
      (Json.lookup name d.given).bind Json.paramText? :=
    (congrArg (Json.lookup name) (Json.collect_of_nodup hdistinct)).trans
      (Json.lookup_filterMap (fun _ v => Json.paramText? v) d.distinct name)
  exact congrArg (Option.getD · []) hlookup

/-- What a draft yields when it is entered and when it is read. -/
theorem yields_make_read (d : Draft) (id : Text) :
    d.Yields (Action.make id d.kind d.given) d.read where
  kind := rfl
  kind' := rfl
  same name hname htruth := by
    rw [param_make, param_read]
    cases hv : Json.lookup name d.given with
    | none => rfl
    | some v =>
      rw [Option.bind_some, Option.bind_some]
      by_cases hnull : v = .null
      · rw [hnull]
        rfl
      · have hbool : ∀ b, v ≠ .bool b := fun b hb => htruth ⟨b, hv.trans (congrArg some hb)⟩
        rw [Action.keptText?_of_mem hname hnull, Json.paramText?_of_ne hnull hbool]
  truth name hname b hv := by
    have hkept : Action.keptText? d.kind name (.bool b) = some (Datum.bool b).shown :=
      Action.keptText?_of_mem hname nofun
    rw [param_make, param_read, hv, Option.bind_some, Option.bind_some, hkept]
    cases b <;> exact ⟨rfl, rfl⟩

end Draft

/-! ## Entering -/

namespace Workflow

/-- The workflow with an action for each of some drafts at its end, entered one after the other. An
action gets the id that belongs to its position. -/
def enterAll (ids : Nat → Text) (w : Workflow) : List Draft → Except NotAdded Workflow
  | [] => .ok w
  | d :: rest => do
    let (_, w) ← w.enter (ids w.actions.length) d.kind.name d.given
    w.enterAll ids rest

/-- A draft is entered unless something stands in the way of what its kind reads. -/
theorem enter_eq (w : Workflow) (d : Draft) (id : Text) :
    w.enter id d.kind.name d.given = match Action.obstacleIn? d.kind d.given with
      | some e => .error e
      | none => .ok (.make id d.kind d.given, w.add (.make id d.kind d.given)) := by
  rw [enter, entered_of_known (ActionKind.ofName?_name d.kind)]
  cases Action.obstacleIn? d.kind d.given with
  | some e => rfl
  | none => rfl

/-- A draft is entered when what its kind reads can be written. -/
theorem enter_eq_ok_iff {w : Workflow} {d : Draft} {id : Text} {entered : Action × Workflow} :
    w.enter id d.kind.name d.given = .ok entered ↔
      d.CanBeEntered ∧ entered = (.make id d.kind d.given, w.add (.make id d.kind d.given)) := by
  have hcan : Action.obstacleIn? d.kind d.given = none ↔ d.CanBeEntered :=
    Action.obstacleIn?_eq_none_iff
  rw [enter_eq, ← hcan]
  cases Action.obstacleIn? d.kind d.given with
  | some e => exact ⟨nofun, fun h => nomatch h.1⟩
  | none => exact ⟨fun h => ⟨rfl, (Except.ok.inj h).symm⟩, fun h => congrArg _ h.2.symm⟩

/-- The first of several drafts is entered, and then the others are, into the workflow with its
action. -/
theorem enterAll_cons_eq_ok_iff {ids : Nat → Text} {w x : Workflow} {d : Draft}
    {rest : List Draft} :
    w.enterAll ids (d :: rest) = .ok x ↔ d.CanBeEntered ∧
      (w.add (.make (ids w.actions.length) d.kind d.given)).enterAll ids rest = .ok x := by
  rw [enterAll]
  constructor
  · intro h
    obtain ⟨entered, henter, hrest⟩ := exists_of_bind_eq_ok h
    obtain ⟨hcan, rfl⟩ := enter_eq_ok_iff.mp henter
    exact ⟨hcan, hrest⟩
  · rintro ⟨hcan, hrest⟩
    rw [enter_eq_ok_iff.mpr ⟨hcan, rfl⟩]
    exact hrest

/-- Drafts are entered when what their kinds read can be written; their actions come in their
order. The induction is on the drafts, for the actions that are there by then. -/
theorem enterAll_eq_ok_iff {ids : Nat → Text} {w x : Workflow} {drafts : List Draft} :
    w.enterAll ids drafts = .ok x ↔ (∀ d ∈ drafts, d.CanBeEntered) ∧
      x = { w with actions := w.actions ++ drafts.mapIdx fun i d =>
        Action.make (ids (w.actions.length + i)) d.kind d.given } := by
  induction drafts generalizing w with
  | nil =>
    rw [enterAll, Except.ok.injEq, List.mapIdx_nil, List.append_nil]
    exact ⟨fun h => ⟨nofun, h.symm⟩, fun h => h.2.symm⟩
  | cons d rest ih =>
    let a := Action.make (ids w.actions.length) d.kind d.given
    have hactions : (w.add a).actions ++ rest.mapIdx (fun i d =>
          Action.make (ids ((w.add a).actions.length + i)) d.kind d.given) =
        w.actions ++ (d :: rest).mapIdx fun i d =>
          Action.make (ids (w.actions.length + i)) d.kind d.given := by
      simp [add, a, List.mapIdx_cons, Nat.add_assoc, Nat.add_comm 1]
    rw [enterAll_cons_eq_ok_iff, ih, hactions, List.forall_mem_cons, and_assoc]
    rfl

end Workflow

/-! ## Reading -/

namespace Draft

/-- A draft describes the action that is read from it, if it can be written with its digits. -/
theorem describesAction_iff {d : Draft} {a : Action} :
    d.toJson.DescribesAction a ↔ ¬ (Json.object d.given).HasLongInt ∧ d.read = a := by
  unfold toJson
  rw [Checked.describesAction_object_iff]
  constructor
  · rintro ⟨⟨v, hv, hid⟩, ⟨x, hx, hkind⟩, hparams⟩
    obtain ⟨i, k, ps⟩ := a
    cases hv
    cases hid
    cases hx
    have hk : d.kind = k := by
      have hname := congrArg ActionKind.ofName? (Json.text.inj hkind)
      rw [ActionKind.ofName?_name, ActionKind.ofName?_name] at hname
      exact Option.some.inj hname
    cases hk
    cases hparams with
    | object hshort => exact ⟨hshort, rfl⟩
  · rintro ⟨hshort, rfl⟩
    exact ⟨⟨_, rfl, .text d.id⟩, ⟨_, rfl, rfl⟩, .object hshort⟩

/-- Drafts describe, each in its place, the actions that are read from them. -/
theorem forall₂_describesAction_iff {drafts : List Draft} {actions : List Action} :
    List.Forall₂ Json.DescribesAction (drafts.map toJson) actions ↔
      (∀ d ∈ drafts, ¬ (Json.object d.given).HasLongInt) ∧ drafts.map read = actions := by
  rw [List.forall₂_map_left_iff]
  simp only [describesAction_iff]
  rw [List.forall₂_and_left, ← List.forall₂_map_left_iff (R := Eq), List.forall₂_eq_eq_eq]

/-- A document of drafts describes the workflow of the actions that are read from them. -/
theorem describesWorkflow_iff {label : Text} {drafts : List Draft} {w : Workflow} :
    (document label drafts).DescribesWorkflow w ↔
      (∀ d ∈ drafts, ¬ (Json.object d.given).HasLongInt) ∧ w = ⟨label, drafts.map read⟩ := by
  unfold document
  rw [Checked.describesWorkflow_object_iff]
  constructor
  · rintro ⟨hlabel, hdescribed⟩
    obtain ⟨l, actions⟩ := w
    cases hlabel
    cases hdescribed with
    | array hall =>
      obtain ⟨hshort, rfl⟩ := forall₂_describesAction_iff.mp hall
      exact ⟨hshort, rfl⟩
  · rintro ⟨hshort, rfl⟩
    exact ⟨.text _ label, .array (forall₂_describesAction_iff.mpr ⟨hshort, rfl⟩)⟩

/-- A draft has a parameter that is nested too deeply when one of its values is. -/
theorem isDeepAction_toJson {d : Draft} :
    Datum.hasDeepParameter.isDeepAction (.ofJson d.toJson) = true ↔
      ∃ p ∈ d.given, Datum.maxDepth < (Datum.ofJson p.2).depth := by
  have hparams : Datum.hasDeepParameter.isDeepAction (.ofJson d.toJson) =
      (Datum.ofFields d.given).any fun p => p.2.depth > Datum.maxDepth := by
    unfold toJson
    rw [Datum.ofJson, Datum.hasDeepParameter.isDeepAction, Datum.entry?_ofFields]
    rfl
  rw [hparams, Datum.ofFields_eq_map, List.any_map, List.any_eq_true]
  simp

/-- A document of drafts has a parameter that is nested too deeply when one of them has. -/
theorem hasDeepParameter_document {label : Text} {drafts : List Draft} :
    (Datum.ofJson (document label drafts)).hasDeepParameter = true ↔
      ∃ d ∈ drafts, ∃ p ∈ d.given, Datum.maxDepth < (Datum.ofJson p.2).depth := by
  have hitems : Datum.ofItems (drafts.map toJson) =
      drafts.map fun d => Datum.ofJson d.toJson := by
    rw [Checked.ofItems_eq_map, List.map_map]
    rfl
  have hactions : (Datum.ofJson (document label drafts)).hasDeepParameter =
      (drafts.map fun d => Datum.ofJson d.toJson).any Datum.hasDeepParameter.isDeepAction := by
    unfold document
    rw [Datum.ofJson, Datum.hasDeepParameter, Datum.entry?_ofFields, ← hitems]
    rfl
  rw [hactions, List.any_map, List.any_eq_true]
  simp only [Function.comp_apply, isDeepAction_toJson]

/-- A draft can be read when no value in it is nested too deeply and no integer in it has too many
digits. -/
theorem canBeRead_iff {d : Draft} : d.CanBeRead ↔
    (¬ ∃ p ∈ d.given, Datum.maxDepth < (Datum.ofJson p.2).depth) ∧
      ¬ (Json.object d.given).HasLongInt := by
  rw [Json.hasLongInt_object_iff]
  constructor
  · intro h
    refine ⟨fun ⟨p, hp, hdeep⟩ => ?_, fun ⟨p, hp, hlong⟩ => (h p hp).2 hlong⟩
    exact absurd (h p hp).1 (Nat.not_le_of_lt hdeep)
  · intro ⟨hshallow, hshort⟩ p hp
    exact ⟨Nat.le_of_not_lt fun hdeep => hshallow ⟨p, hp, hdeep⟩,
      fun hlong => hshort ⟨p, hp, hlong⟩⟩

/-- A document of drafts is read when everything in it can be written. -/
theorem ofDocument_eq_ok_iff {label : Text} {drafts : List Draft} {x : Workflow} :
    Workflow.ofDocument (.ofJson (document label drafts)) = .ok x ↔
      (∀ d ∈ drafts, d.CanBeRead) ∧ x = ⟨label, drafts.map read⟩ := by
  unfold Workflow.ofDocument
  by_cases hdeep : (Datum.ofJson (document label drafts)).hasDeepParameter = true
  · rw [if_pos hdeep]
    refine ⟨nofun, fun ⟨hall, _⟩ => ?_⟩
    obtain ⟨d, hd, hparam⟩ := hasDeepParameter_document.mp hdeep
    exact absurd hparam (canBeRead_iff.mp (hall d hd)).1
  · rw [if_neg hdeep]
    have hjson : (Workflow.ofDatum (.ofJson (document label drafts))).mapError LoadError.rejected =
        .ok x ↔ Workflow.ofJson (document label drafts) = .ok x :=
      ⟨of_mapError_eq_ok, fun h => congrArg (Except.mapError LoadError.rejected) h⟩
    have hall : (∀ d ∈ drafts, d.CanBeRead) ↔
        ∀ d ∈ drafts, ¬ (Json.object d.given).HasLongInt := by
      refine forall₂_congr fun d hd => canBeRead_iff.trans (and_iff_right fun hparam => ?_)
      exact hdeep (hasDeepParameter_document.mpr ⟨d, hd, hparam⟩)
    rw [hjson, Workflow.ofJson_eq_ok_iff, describesWorkflow_iff, hall]

end Draft

/-! ## Both ways -/

namespace Draft

/-- Drafts yield, each in its place, actions that were entered and actions that were read. -/
inductive YieldAll : List Draft → List Action → List Action → Prop
  /-- Without drafts there are no actions. -/
  | nil : YieldAll [] [] []
  /-- The first draft yields the first action on either side. -/
  | cons {d : Draft} {a a' : Action} {rest : List Draft} {actions actions' : List Action} :
      d.Yields a a' → YieldAll rest actions actions' →
        YieldAll (d :: rest) (a :: actions) (a' :: actions')

/-- Actions that come of a draft read the same when no parameter that is read is given as a truth
value. -/
theorem Yields.readsLike {d : Draft} {a a' : Action} (h : d.Yields a a')
    (htruth : ∀ name ∈ d.kind.parameters, ¬ d.GivesTruth name) : a.ReadsLike a' where
  kind := h.kind.trans h.kind'.symm
  param name hname := by
    rw [h.kind] at hname
    exact h.same name hname (htruth name hname)

/-- Actions that come of drafts read the same, each in its place, when no parameter that is read is
given as a truth value. -/
theorem YieldAll.readsLike {drafts : List Draft} {actions actions' : List Action}
    (h : YieldAll drafts actions actions')
    (htruth : ∀ d ∈ drafts, ∀ name ∈ d.kind.parameters, ¬ d.GivesTruth name) :
    List.Forall₂ Action.ReadsLike actions actions' := by
  induction h with
  | nil => exact .nil
  | cons hyields _ ih =>
    obtain ⟨hfirst, hrest⟩ := List.forall_mem_cons.mp htruth
    exact .cons (hyields.readsLike hfirst) (ih hrest)

/-- What drafts yield when they are entered, with any ids, and when they are read. -/
theorem yieldAll_mapIdx_map (ids : Nat → Text) (drafts : List Draft) :
    YieldAll drafts (drafts.mapIdx fun i d => Action.make (ids i) d.kind d.given)
      (drafts.map read) := by
  induction drafts generalizing ids with
  | nil => exact .nil
  | cons d rest ih =>
    rw [List.mapIdx_cons, List.map_cons]
    exact .cons (d.yields_make_read (ids 0)) (ih fun i => ids (i + 1))

end Draft

namespace Workflow

/-- **What is entered is what is read, but for truth values.** Drafts are entered, one by one in an
editor, exactly when the parameters that their kinds read can be written, and a document of them is
read exactly when all of their parameters can be. The two workflows have the label and, for each
draft in its place, an action of its kind; the two actions carry the same values for the parameters
that it reads, except for truth values, which are entered with a capital and read in small letters.
So, when no parameter that is read is given as a truth value, the two workflows have the same runs,
as long as no observer looks at records. -/
theorem entered_as_read (label : Text) (ids : Nat → Text) (drafts : List Draft) :
    ((∃ x, (new label).enterAll ids drafts = .ok x) ↔ ∀ d ∈ drafts, d.CanBeEntered) ∧
    ((∃ x', ofDocument (.ofJson (Draft.document label drafts)) = .ok x') ↔
      ∀ d ∈ drafts, d.CanBeRead) ∧
    ∀ x x', (new label).enterAll ids drafts = .ok x →
      ofDocument (.ofJson (Draft.document label drafts)) = .ok x' →
        x.label = label ∧ x'.label = label ∧ Draft.YieldAll drafts x.actions x'.actions ∧
        ((∀ d ∈ drafts, ∀ name ∈ d.kind.parameters, ¬ d.GivesTruth name) →
          ∀ (σ : Type) (h : Host σ) (w : World σ), w.IsBlind → Run.SameRuns h w x x') := by
  refine ⟨?_, ?_, fun x x' hx hx' => ?_⟩
  · simp only [enterAll_eq_ok_iff, exists_and_left, exists_eq, and_true]
  · simp only [Draft.ofDocument_eq_ok_iff, exists_and_left, exists_eq, and_true]
  · obtain ⟨-, rfl⟩ := enterAll_eq_ok_iff.mp hx
    obtain ⟨-, rfl⟩ := Draft.ofDocument_eq_ok_iff.mp hx'
    have hyield := Draft.yieldAll_mapIdx_map
      (fun i => ids ((new label).actions.length + i)) drafts
    exact ⟨rfl, rfl, hyield, fun htruth σ h w =>
      Run.sameRuns_of_readsLike h (hyield.readsLike htruth)⟩

/-- A value that is a list with a truth value in it, a truth value that is not read, a message that
is missing and a message that is a number: all of them are entered as they are read. -/
theorem entered_as_read_nested_truth :
    let drafts : List Draft :=
      [⟨"a", .setLocalStorage, [("note", .bool true), ("key", .text "k"),
          ("value", .array [.int 1, .null, .bool true])], by decide⟩,
        ⟨"b", .alert, [("message", .null)], by decide⟩,
        ⟨"c", .promptAndShow, [("message", .int 7)], by decide⟩]
    let x : Workflow :=
      ⟨"Go", [⟨Action.idOf 0, .setLocalStorage, some [("key", "k"), ("value", "[1, None, True]")]⟩,
        ⟨Action.idOf 1, .alert, none⟩, ⟨Action.idOf 2, .promptAndShow, some [("message", "7")]⟩]⟩
    let x' : Workflow :=
      ⟨"Go", [⟨"a", .setLocalStorage,
          some [("note", "true"), ("key", "k"), ("value", "[1, None, True]")]⟩,
        ⟨"b", .alert, some []⟩, ⟨"c", .promptAndShow, some [("message", "7")]⟩]⟩
    let w : World HostScript := {
      surface := .fresh, listeners := [Streaming.listener], shelf := ⟨.memory [], ⟨[], [], []⟩⟩
      host := {}, sequencer := .paced 5 }
    (new "Go").enterAll Action.idOf drafts = .ok x ∧
      ofDocument (.ofJson (Draft.document "Go" drafts)) = .ok x' ∧
      (∀ d ∈ drafts, d.CanBeEntered) ∧ (∀ d ∈ drafts, d.CanBeRead) ∧
      (∀ d ∈ drafts, ∀ name ∈ d.kind.parameters, ¬ d.GivesTruth name) ∧ w.IsBlind ∧
      Draft.YieldAll drafts x.actions x'.actions ∧ Run.SameRuns HostScript.host w x x' := by
  intro drafts x x' w
  have hentered : (new "Go").enterAll Action.idOf drafts = .ok x := by decide +kernel
  have hread : ofDocument (.ofJson (Draft.document "Go" drafts)) = .ok x' := by decide +kernel
  have htruth : ∀ d ∈ drafts, ∀ name ∈ d.kind.parameters, ¬ d.GivesTruth name := by decide
  have hblind : w.IsBlind := by
    intro l hl
    rw [List.mem_singleton.mp hl]
    exact Streaming.ignoresRecords_listener
  obtain ⟨hcanEnter, hcanRead, hboth⟩ := entered_as_read "Go" Action.idOf drafts
  obtain ⟨-, -, hyield, hruns⟩ := hboth x x' hentered hread
  exact ⟨hentered, hread, hcanEnter.mp ⟨x, hentered⟩, hcanRead.mp ⟨x', hread⟩, htruth, hblind,
    hyield, hruns htruth HostScript HostScript.host w hblind⟩

/-- A line that is given as a truth value is entered with a capital and read in small letters. -/
theorem not_always_entered_as_read :
    ¬ ∀ (label id : Text) (d : Draft) (a : Action) (x x' : Workflow),
      (new label).enter id d.kind.name d.given = .ok (a, x) →
        ofDocument (.ofJson (Draft.document label [d])) = .ok x' →
          ∀ a' ∈ x'.actions, ∀ name ∈ d.kind.parameters, a.param name = a'.param name := by
  intro hall
  let d : Draft := ⟨"a", .showText, [("text", .bool true)], by decide⟩
  let a : Action := ⟨"b", .showText, some [("text", "True")]⟩
  let a' : Action := ⟨"a", .showText, some [("text", "true")]⟩
  have hsame := hall "Go" "b" d a ⟨"Go", [a]⟩ ⟨"Go", [a']⟩ rfl rfl a' (by simp) "text" (by decide)
  exact absurd hsame (by decide)

end Workflow

end PushButton
