import PushButton.Proofs.Storage.Workflow
import PushButton.Proofs.Workflow.Format

/-!
# Edits of a workflow

An editor holds a workflow, and each of its edits answers and leaves a workflow behind. Some edits
add actions and some take actions away. What an edit leaves together with what it takes away is, up
to order, what was there together with what it adds; whatever stays true of the actions along a row
of edits is read off this one fact.
-/

namespace PushButton

/-! ## Values that can be written -/

/-- A value can be written: it is not nested too deeply, and no integer in it has too many
digits. -/
def Json.IsWritable (v : Json) : Prop :=
  (Datum.ofJson v).depth ≤ Datum.maxDepth ∧ ¬ v.HasLongInt

namespace Action

/-- Nothing stands in the way of a value exactly when it can be written. -/
theorem obstacle?_eq_none_iff {v : Json} : obstacle? v = none ↔ v.IsWritable := by
  have hlong : (Datum.ofJson v).isUnwritable = true ↔ v.HasLongInt := Datum.isUnwritable_ofJson v
  unfold obstacle? Json.IsWritable
  dsimp only
  split
  · next hdeep => exact ⟨nofun, fun h => absurd h.1 (by omega)⟩
  · next hshallow =>
    split
    · next hunwritable => exact ⟨nofun, fun h => absurd (hlong.mp hunwritable) h.2⟩
    · next hwritable => exact ⟨fun _ => ⟨by omega, mt hlong.mpr hwritable⟩, fun _ => rfl⟩

/-- Nothing stands in the way of the parameters that a kind reads exactly when each of them can be
written. -/
theorem obstacleIn?_eq_none_iff {kind : ActionKind} {given : List (Text × Json)} :
    obstacleIn? kind given = none ↔
      ∀ p ∈ given, p.1 ∈ kind.parameters → p.2.IsWritable := by
  unfold obstacleIn?
  rw [List.findSome?_eq_none_iff]
  refine forall₂_congr fun p _ => ?_
  rw [← obstacle?_eq_none_iff, ← List.contains_iff_mem]
  dsimp only
  split
  · next hread => exact ⟨fun h _ => h, fun h => h hread⟩
  · next hunread => exact ⟨fun _ h => absurd h hunread, fun _ => rfl⟩

end Action

/-! ## New actions -/

namespace Action

/-- An action has no parameters, or some, each of them once and declared for its kind. -/
def IsTrim (a : Action) : Prop :=
  ∀ ps ∈ a.params, ps ≠ [] ∧ (Json.keys ps).Nodup ∧ ∀ name ∈ Json.keys ps, name ∈ a.kind.parameters

instance (a : Action) : Decidable a.IsTrim :=
  inferInstanceAs (Decidable (∀ ps ∈ a.params, _ ∧ _ ∧ _))

/-- Only parameters that are declared for a kind are kept. -/
theorem mem_parameters_of_keptParams {kind : ActionKind} {given : List (Text × Json)}
    {p : Text × Text} (h : p ∈ keptParams kind given) : p.1 ∈ kind.parameters := by
  obtain ⟨⟨name, value⟩, -, hkept⟩ := List.mem_filterMap.mp h
  dsimp only at hkept
  split at hkept
  · cases hkept
  · split at hkept
    · next hdeclared =>
      cases hkept
      exact List.contains_iff_mem.mp hdeclared
    · cases hkept

/-- A new action is trim. -/
theorem isTrim_make (id : Text) (kind : ActionKind) {given : List (Text × Json)}
    (h : (Json.keys given).Nodup) : (make id kind given).IsTrim := by
  intro ps hps
  obtain ⟨hkept, hsome⟩ := mem_params_make_iff.mp hps
  refine ⟨hsome, hasDistinctNames_make id kind h ps hps, fun name hname => ?_⟩
  obtain ⟨p, hp, rfl⟩ := List.mem_map.mp hname
  rw [hkept] at hp
  exact mem_parameters_of_keptParams hp

/-- The parameters of a trim action have distinct names. -/
theorem IsTrim.hasDistinctNames {a : Action} (h : a.IsTrim) : a.HasDistinctNames :=
  fun ps hps => (h ps hps).2.1

end Action

namespace Workflow

/-! ## Edits -/

/-- What an editor answers to an edit. -/
inductive Answer where
  /-- The edit is made. -/
  | done
  /-- The edit changed something, or it did not. -/
  | changed (b : Bool)
  /-- The action was added. -/
  | added (a : Action)
deriving DecidableEq, Repr

/-- What is done with an editor. -/
inductive Edit where
  /-- An action of a kind with a name is added with parameters, which have distinct names, and gets
  an id. -/
  | add (kind : Text) (given : List (Text × Json)) (distinct : (Json.keys given).Nodup) (id : Text)
  /-- The actions with an id are removed. -/
  | remove (id : Text)
  /-- An action is moved to the front. -/
  | moveUp (index : Int)
  /-- An action is moved to the back. -/
  | moveDown (index : Int)
  /-- The workflow gets another label. -/
  | relabel (label : Text)
  /-- The actions are removed. -/
  | clear
  /-- The workflow is saved in a storage, whatever this holds by then, and what is found there takes
  its place. -/
  | keep (settings : Settings) (s : Shelf)

/-- What is found in a storage after a workflow was saved there. -/
def reloaded (w : Workflow) (settings : Settings) (s : Shelf) : Except Failure Workflow :=
  match s.saveWorkflow settings.configKey w with
  | (.error e, _) => .error e.failure
  | (.ok (), s, _) =>
    (s.loadWorkflow settings.configKey).map fun found => found.getD (.new settings.label)

/-- A change that was tried, with its answer. -/
def answered (r : Bool × Workflow) : Except Failure Answer × Workflow := (.ok (.changed r.1), r.2)

/-- The answer to an edit, or its failure, and the workflow after it. -/
def edit (w : Workflow) : Edit → Except Failure Answer × Workflow
  | .add kind given _ id =>
    match w.enter id kind given with
    | .error e => (.error e.failure, w)
    | .ok (a, after) => (.ok (.added a), after)
  | .remove id => answered (w.tried (w.remove? id))
  | .moveUp index => answered (w.up index)
  | .moveDown index => answered (w.down index)
  | .relabel label => (.ok .done, w.relabel label)
  | .clear => (.ok .done, w.clear)
  | .keep settings s =>
    match w.reloaded settings s with
    | .error f => (.error f, w)
    | .ok found => (.ok .done, found)

/-- The actions that an edit adds: none when the addition is refused. -/
def Edit.added : Edit → List Action
  | .add kind given _ id => (entered id kind given).toOption.toList
  | _ => []

/-- The actions that an edit takes away from a workflow. -/
def takenBy (w : Workflow) : Edit → List Action
  | .remove id => w.actions.filter fun a => a.id = id
  | .clear => w.actions
  | _ => []

/-- The workflow after edits, one after the other. -/
def editAll (w : Workflow) : List Edit → Workflow
  | [] => w
  | e :: rest => (w.edit e).2.editAll rest

/-- The actions that edits, one after the other, take away. -/
def takenByAll (w : Workflow) : List Edit → List Action
  | [] => []
  | e :: rest => w.takenBy e ++ (w.edit e).2.takenByAll rest

/-- The ids of the actions. -/
def ids (w : Workflow) : List Text := w.actions.map (·.id)

/-- The ids of the actions are distinct. -/
def HasDistinctIds (w : Workflow) : Prop := w.ids.Nodup

/-- Every id that is given by one of several edits is none of those that are there by then. -/
def AreFresh (w : Workflow) : List Edit → Prop
  | [] => True
  | e :: rest => (∀ a ∈ e.added, a.id ∉ w.ids) ∧ (w.edit e).2.AreFresh rest

instance (w : Workflow) : Decidable w.HasDistinctIds := inferInstanceAs (Decidable w.ids.Nodup)

instance decidableAreFresh : ∀ (w : Workflow) (edits : List Edit), Decidable (w.AreFresh edits)
  | _, [] => isTrue trivial
  | w, e :: rest =>
    have := (w.edit e).2.decidableAreFresh rest
    inferInstanceAs (Decidable (_ ∧ _))

/-! ## One edit -/

section One

variable {w : Workflow} {kind : Text} {given : List (Text × Json)}

/-- An action of a known kind is new unless something stands in the way of what the kind reads. -/
theorem entered_of_known {k : ActionKind} (hk : ActionKind.ofName? kind = some k) (id : Text) :
    entered id kind given = match Action.obstacleIn? k given with
      | some e => .error e
      | none => .ok (.make id k given) := by
  unfold entered kindOf
  rw [hk]
  rfl

/-- No action of an unknown kind is new. -/
theorem entered_of_unknown (hk : ActionKind.ofName? kind = none) (id : Text) :
    entered id kind given = .error (.unknownKind ⟨kind⟩) := by
  unfold entered kindOf
  rw [hk]
  rfl

/-- An action that is new is trim. -/
theorem isTrim_of_entered {a : Action} (distinct : (Json.keys given).Nodup) {id : Text}
    (h : entered id kind given = .ok a) : a.IsTrim := by
  cases hk : ActionKind.ofName? kind with
  | none =>
    rw [entered_of_unknown hk] at h
    cases h
  | some k =>
    rw [entered_of_known hk] at h
    split at h
    · cases h
    · rw [← Except.ok.inj h]
      exact Action.isTrim_make id k distinct

/-- An action is added at the end, or it is refused and the workflow is left. -/
theorem edit_add (w : Workflow) (distinct : (Json.keys given).Nodup) (id : Text) :
    w.edit (.add kind given distinct id) = match entered id kind given with
      | .error e => (.error e.failure, w)
      | .ok a => (.ok (.added a), w.add a) := by
  rw [edit, enter]
  cases entered id kind given with
  | error e => rfl
  | ok a => rfl

/-- An action of a known kind is added at the end when what the kind reads can be written. -/
theorem edit_add_of_known {k : ActionKind} (hk : ActionKind.ofName? kind = some k)
    (hwritable : ∀ p ∈ given, p.1 ∈ k.parameters → p.2.IsWritable)
    (distinct : (Json.keys given).Nodup) (id : Text) :
    w.edit (.add kind given distinct id) = (.ok (.added (.make id k given)),
      { w with actions := w.actions ++ [.make id k given] }) := by
  rw [edit_add, entered_of_known hk, Action.obstacleIn?_eq_none_iff.mpr hwritable]
  rfl

/-- An action of a known kind is refused when something that the kind reads cannot be written. -/
theorem edit_add_of_obstacle {k : ActionKind} (hk : ActionKind.ofName? kind = some k)
    (hunwritable : ¬ ∀ p ∈ given, p.1 ∈ k.parameters → p.2.IsWritable)
    (distinct : (Json.keys given).Nodup) (id : Text) :
    ∃ e, Action.obstacleIn? k given = some e ∧
      w.edit (.add kind given distinct id) = (.error e.failure, w) := by
  obtain ⟨e, he⟩ := Option.ne_none_iff_exists'.mp (mt Action.obstacleIn?_eq_none_iff.mp hunwritable)
  refine ⟨e, he, ?_⟩
  rw [edit_add, entered_of_known hk, he]

/-- An action of an unknown kind is refused. -/
theorem edit_add_of_unknown (hk : ActionKind.ofName? kind = none)
    (distinct : (Json.keys given).Nodup) (id : Text) :
    w.edit (.add kind given distinct id) =
      (.error ⟨.invalid, UnknownKind.message ⟨kind⟩⟩, w) := by
  rw [edit_add, entered_of_unknown hk]
  rfl

/-- A removal answers whether the id was there, and leaves the actions with other ids. -/
theorem edit_remove (w : Workflow) (id : Text) :
    w.edit (.remove id) = (.ok (.changed (decide (id ∈ w.ids))),
      { w with actions := w.actions.filter fun a => a.id ≠ id }) := by
  have hany : (w.actions.any fun a => a.id = id) = decide (id ∈ w.ids) := by
    simp [ids, List.any_eq]
  rw [edit, remove?, hany]
  by_cases hid : id ∈ w.ids
  · simp only [hid, decide_true, if_true]
    rfl
  · have hsame : (w.actions.filter fun a => a.id ≠ id) = w.actions := by
      refine List.filter_eq_self.mpr fun a ha => decide_eq_true ?_
      rintro rfl
      exact hid (List.mem_map_of_mem ha)
    simp only [hid, decide_false, Bool.false_eq_true, if_false, hsame]
    rfl

/-- What is found after a workflow was saved is the workflow. -/
theorem HasDistinctNames.reloaded (h : w.HasDistinctNames) (settings : Settings) (s : Shelf) :
    w.reloaded settings s =
      ((s.saveWorkflow settings.configKey w).1.mapError StorageError.failure).map fun _ => w := by
  unfold Workflow.reloaded
  cases hsave : s.saveWorkflow settings.configKey w with
  | mk result rest =>
    obtain ⟨s', records⟩ := rest
    cases result with
    | error e => rfl
    | ok _ =>
      dsimp only
      rw [Shelf.loadWorkflow_of_saveWorkflow h hsave]
      rfl

/-- Saving and loading answers whether the workflow could be saved, and leaves it. -/
theorem HasDistinctNames.edit_keep (h : w.HasDistinctNames) (settings : Settings) (s : Shelf) :
    w.edit (.keep settings s) =
      (((s.saveWorkflow settings.configKey w).1.mapError StorageError.failure).map fun _ => .done,
        w) := by
  rw [edit, h.reloaded settings s]
  cases (s.saveWorkflow settings.configKey w).1 with
  | error e => rfl
  | ok _ => rfl

/-- An edit that fails leaves the workflow. -/
theorem edit_of_failure {e : Edit} {f : Failure} (h : (w.edit e).1 = .error f) :
    (w.edit e).2 = w := by
  cases e with
  | add kind given distinct id =>
    rw [edit_add] at h ⊢
    split at h
    · rfl
    · cases h
  | keep settings s =>
    unfold edit at h ⊢
    dsimp only at h ⊢
    split at h
    · rfl
    · cases h
  | remove _ | moveUp _ | moveDown _ | relabel _ | clear => cases h

/-- **No action is lost.** What an edit leaves and what it takes away are the actions that were
there and those that it adds. -/
theorem HasDistinctNames.perm_edit (h : w.HasDistinctNames) (e : Edit) :
    ((w.edit e).2.actions ++ w.takenBy e).Perm (w.actions ++ e.added) := by
  cases e with
  | add kind given distinct id =>
    unfold takenBy Edit.added
    dsimp only
    rw [edit_add, List.append_nil]
    cases entered id kind given with
    | error e => exact .of_eq (List.append_nil _).symm
    | ok a => exact .refl _
  | remove id =>
    rw [edit_remove]
    refine List.perm_append_comm.trans ?_
    simpa [takenBy, Edit.added] using List.filter_append_perm (fun a => a.id = id) w.actions
  | moveUp index =>
    rw [edit, up_eq_down]
    exact (perm_down w (index - 1)).2.append_right []
  | moveDown index => exact (perm_down w index).2.append_right []
  | relabel label => exact .refl _
  | clear => simp [edit, Workflow.clear, takenBy, Edit.added]
  | keep settings s =>
    rw [h.edit_keep settings s]
    exact .refl _

/-- What an edit adds is trim. -/
theorem Edit.isTrim_of_mem_added {e : Edit} {a : Action} (ha : a ∈ e.added) : a.IsTrim := by
  cases e with
  | add kind given distinct id =>
    unfold added at ha
    dsimp only at ha
    cases hentered : entered id kind given with
    | error e =>
      rw [hentered] at ha
      cases ha
    | ok new =>
      rw [hentered] at ha
      rw [List.mem_singleton.mp ha]
      exact isTrim_of_entered distinct hentered
  | remove _ | moveUp _ | moveDown _ | relabel _ | clear | keep _ _ => cases ha

/-- An edit adds one action at most. -/
theorem Edit.length_added_le (e : Edit) : e.added.length ≤ 1 := by
  cases e with
  | add kind given distinct id =>
    unfold added
    dsimp only
    cases entered id kind given with
    | error e => exact Nat.zero_le 1
    | ok a => exact Nat.le_refl 1
  | remove _ | moveUp _ | moveDown _ | relabel _ | clear | keep _ _ => exact Nat.zero_le 1

/-- Distinct names stay distinct. -/
theorem HasDistinctNames.edit (h : w.HasDistinctNames) (e : Edit) :
    (w.edit e).2.HasDistinctNames := by
  intro a ha
  have hmem : a ∈ w.actions ++ e.added :=
    (h.perm_edit e).mem_iff.mp (List.mem_append_left _ ha)
  rcases List.mem_append.mp hmem with hold | hnew
  · exact h a hold
  · exact (Edit.isTrim_of_mem_added hnew).hasDistinctNames

/-- Distinct ids stay distinct when a new one is fresh. -/
theorem HasDistinctIds.edit (h : w.HasDistinctIds) (hnames : w.HasDistinctNames) {e : Edit}
    (hfresh : ∀ a ∈ e.added, a.id ∉ w.ids) : (w.edit e).2.HasDistinctIds := by
  have hall : ((w.actions ++ e.added).map (·.id)).Nodup := by
    rw [List.map_append, List.nodup_append']
    refine ⟨h, ?_, ?_⟩
    · have hlength := e.length_added_le
      match e.added, hlength with
      | [], _ => exact List.nodup_nil
      | [a], _ => exact List.nodup_singleton a.id
    · intro id hold hnew
      obtain ⟨a, ha, rfl⟩ := List.mem_map.mp hnew
      exact hfresh a ha hold
  have hleft := ((hnames.perm_edit e).map (·.id)).nodup_iff.mpr hall
  rw [List.map_append] at hleft
  exact hleft.of_append_left

end One

/-! ## Edits in a row -/

/-- Distinct names stay distinct along edits. -/
theorem HasDistinctNames.editAll {w : Workflow} (h : w.HasDistinctNames) (edits : List Edit) :
    (w.editAll edits).HasDistinctNames := by
  induction edits generalizing w with
  | nil => exact h
  | cons e rest ih => exact ih (h.edit e)

/-- Distinct ids stay distinct along edits that give fresh ones. -/
theorem HasDistinctIds.editAll {w : Workflow} (h : w.HasDistinctIds) (hnames : w.HasDistinctNames)
    {edits : List Edit} (hfresh : w.AreFresh edits) : (w.editAll edits).HasDistinctIds := by
  induction edits generalizing w with
  | nil => exact h
  | cons e rest ih => exact ih (h.edit hnames hfresh.1) (hnames.edit e) hfresh.2

/-- No action is lost along edits. -/
theorem HasDistinctNames.perm_editAll {w : Workflow} (h : w.HasDistinctNames) (edits : List Edit) :
    ((w.editAll edits).actions ++ w.takenByAll edits).Perm
      (w.actions ++ edits.flatMap Edit.added) := by
  induction edits generalizing w with
  | nil => exact .refl _
  | cons e rest ih =>
    have hone := h.perm_edit e
    have hrest := ih (h.edit e)
    simp only [List.perm_iff_count, List.count_append, Workflow.editAll, takenByAll,
      List.flatMap_cons] at hone hrest ⊢
    intro a
    have hone := hone a
    have hrest := hrest a
    omega

/-- **Edits keep the actions in order.** From a workflow with distinct ids, whose parameters have
distinct names, let edits be made one after the other that give fresh ids. Then the ids are
distinct; the actions are, up to order, those from the beginning and those that were added, without
those that were removed or cleared away; and every action that was added is trim. Afterwards, an
action of a known kind is added at the end when what the kind reads can be written, and refused
otherwise; one of an unknown kind is refused; a removal answers whether the id was there, and takes
away the actions with this id and no others, which keep their order; saving and loading gives the
workflow back, or fails because it cannot be saved; and no edit that fails changes anything. -/
theorem edits_keep_actions {w : Workflow} (hids : w.HasDistinctIds) (hnames : w.HasDistinctNames)
    {edits : List Edit} (hfresh : w.AreFresh edits) :
    (w.editAll edits).HasDistinctIds ∧
      ((w.editAll edits).actions ++ w.takenByAll edits).Perm
        (w.actions ++ edits.flatMap Edit.added) ∧
      (∀ a ∈ edits.flatMap Edit.added, a.IsTrim) ∧
      (∀ kind k given distinct id, ActionKind.ofName? kind = some k →
        (∀ p ∈ given, p.1 ∈ k.parameters → p.2.IsWritable) →
        (w.editAll edits).edit (.add kind given distinct id) = (.ok (.added (.make id k given)),
          { w.editAll edits with actions := (w.editAll edits).actions ++ [.make id k given] })) ∧
      (∀ kind k given distinct id, ActionKind.ofName? kind = some k →
        ¬ (∀ p ∈ given, p.1 ∈ k.parameters → p.2.IsWritable) →
        ∃ e, Action.obstacleIn? k given = some e ∧
          (w.editAll edits).edit (.add kind given distinct id) =
            (.error e.failure, w.editAll edits)) ∧
      (∀ kind given distinct id, ActionKind.ofName? kind = none →
        (w.editAll edits).edit (.add kind given distinct id) =
          (.error ⟨.invalid, UnknownKind.message ⟨kind⟩⟩, w.editAll edits)) ∧
      (∀ id, (w.editAll edits).edit (.remove id) =
        (.ok (.changed (decide (id ∈ (w.editAll edits).ids))),
          { w.editAll edits with
            actions := (w.editAll edits).actions.filter fun a => a.id ≠ id })) ∧
      (∀ settings s, (w.editAll edits).edit (.keep settings s) =
        (((s.saveWorkflow settings.configKey (w.editAll edits)).1.mapError
          StorageError.failure).map fun _ => .done, w.editAll edits)) ∧
      ∀ e f, ((w.editAll edits).edit e).1 = .error f →
        ((w.editAll edits).edit e).2 = w.editAll edits := by
  refine ⟨hids.editAll hnames hfresh, hnames.perm_editAll edits, ?_, ?_, ?_, ?_, edit_remove _,
    (hnames.editAll edits).edit_keep, fun e f => edit_of_failure⟩
  · intro a ha
    obtain ⟨e, -, hadded⟩ := List.mem_flatMap.mp ha
    exact Edit.isTrim_of_mem_added hadded
  · exact fun kind k given distinct id hk hwritable => edit_add_of_known hk hwritable distinct id
  · exact fun kind k given distinct id hk hunwritable =>
      edit_add_of_obstacle hk hunwritable distinct id
  · exact fun kind given distinct id hk => edit_add_of_unknown hk distinct id

/-- A line and a dialog keep their ids apart while a picture is added in front of the dialog, an
action of no kind and one whose text has too many digits are refused, the line is removed, and the
workflow is saved and loaded. -/
theorem edits_keep_actions_of_dialog :
    let w : Workflow :=
      ⟨"Go", [⟨"a", .showText, some [("text", "one")]⟩, ⟨"b", .alert, none⟩]⟩
    let picture : List (Text × Json) := [("url", .text "sun.png"), ("size", .int 3)]
    let long : List (Text × Json) := [("text", .int (.ofNat (Nat.pow 10 4300)))]
    let edits : List Edit :=
      [.add "showImage" picture (by decide) "c", .moveUp 2, .add "jump" [] (by decide) "d",
        .add "showText" long (by decide) "e", .remove "a", .keep {} ⟨.memory [], ⟨[], [], []⟩⟩]
    let c : Action := ⟨"c", .showImage, some [("url", "sun.png")]⟩
    w.HasDistinctIds ∧ w.HasDistinctNames ∧ w.AreFresh edits ∧
      w.editAll edits = ⟨"Go", [c, ⟨"b", .alert, none⟩]⟩ ∧ (w.editAll edits).HasDistinctIds ∧
      w.takenByAll edits = [⟨"a", .showText, some [("text", "one")]⟩] ∧
      edits.flatMap Edit.added = [c] ∧ c.IsTrim ∧
      ((w.editAll edits).edit (.add "showText" long (by decide) "e")).2 = w.editAll edits ∧
      ((w.editAll edits).edit (.remove "a")).1 = .ok (.changed false) ∧
      ((w.editAll edits).edit (.remove "b")).2 = ⟨"Go", [c]⟩ := by
  intro w picture long edits c
  have hids : w.HasDistinctIds := by decide
  have hnames : w.HasDistinctNames := by
    unfold HasDistinctNames Action.HasDistinctNames
    decide
  have hfresh : w.AreFresh edits := by decide +kernel
  have hafter : w.editAll edits = ⟨"Go", [c, ⟨"b", .alert, none⟩]⟩ := by decide +kernel
  have hadded : edits.flatMap Edit.added = [c] := by decide +kernel
  have hlong : ¬ ∀ p ∈ long, p.1 ∈ ActionKind.showText.parameters → p.2.IsWritable :=
    mt Action.obstacleIn?_eq_none_iff.mpr (by decide +kernel)
  obtain ⟨hdistinct, -, htrim, -, hrefused, -, hremove, -, -⟩ :=
    edits_keep_actions hids hnames hfresh
  refine ⟨hids, hnames, hfresh, hafter, hdistinct, by decide +kernel, hadded, htrim c ?_, ?_, ?_,
    ?_⟩
  · rw [hadded]
    exact List.mem_singleton_self c
  · obtain ⟨e, -, hleft⟩ := hrefused "showText" .showText long (by decide) "e" rfl hlong
    rw [hleft]
  · rw [hremove, hafter]
    decide
  · rw [hremove, hafter]
    decide

end Workflow

end PushButton
