import PushButton.Proofs.Cli.Endings
import PushButton.Proofs.Surface.Rendering
import PushButton.Proofs.Workflow.Stored

/-!
# The stored workflow is shown as it is

The stored workflow is shown as a table with the label in its title and a row for each action. Label
and parameters are escaped and ids are not, so that an id is shown as it is exactly when it holds no
markup. When label and parameters are shown as they are, the whole workflow is exactly when all ids
are.
-/

namespace PushButton

namespace Markup

/-! ## Texts that are shown as they are -/

/-- The meaning of a text is no longer than the text with the backslashes in front of it, and it is
shorter when the text holds markup. The induction is on the text. -/
theorem length_resolveFrom_le {position pending skipped : Nat} {opened : List Text}
    {t meaning : Text} (h : resolveFrom position opened pending skipped t = .ok meaning) :
    meaning.length + (if skipped = 0 ∧ hasMarkup (0 < pending) t = true then 1 else 0) ≤
      pending + t.length := by
  have hslashes (n : Nat) : (slashes n).length = n := List.length_replicate
  induction t generalizing position opened pending skipped meaning with
  | nil =>
    cases h
    simp [hasMarkup, slashes]
  | cons s rest ih =>
    cases skipped with
    | succ n =>
      rw [resolveFrom] at h
      have hrest := ih h
      rw [if_neg (by simp), List.length_cons]
      omega
    | zero =>
      rw [resolveFrom] at h
      rw [hasMarkup, List.length_cons]
      by_cases hslash : s = .char '\\'
      · rw [if_pos hslash] at h
        have hrest := ih h
        subst hslash
        simp only [Nat.zero_lt_succ, decide_true, true_and] at hrest ⊢
        have hnone : (Symbol.char '\\' = .char '[') = False := by decide
        simp only [hnone, decide_false, Bool.false_and, Bool.false_or]
        omega
      · rw [if_neg hslash] at h
        by_cases hbracket : s = .char '['
        · rw [if_pos hbracket] at h
          subst hbracket
          cases htag : tag? rest with
          | none =>
            rw [htag] at h
            obtain ⟨shown, hshown, rfl⟩ := exists_of_map_eq_ok h
            have hrest := ih hshown
            rw [List.length_append, List.length_cons, hslashes]
            cases pending with
            | zero =>
              simp only [Nat.lt_irrefl, decide_false, decide_true, Option.isSome_none, true_and,
                Bool.or_false, Bool.and_false, Bool.false_or] at hrest ⊢
              have hslash : (Symbol.char '[' = .char '\\') = False := by decide
              simp only [hslash, decide_false]
              omega
            | succ n =>
              split
              · omega
              · omega
          | some tag =>
            rw [htag] at h
            dsimp only at h
            split at h
            · obtain ⟨shown, hshown, rfl⟩ := exists_of_map_eq_ok h
              have hrest := ih hshown
              rw [List.length_append, List.length_cons, hslashes]
              split
              · omega
              · omega
            · split at h
              · cases h
              · obtain ⟨shown, hshown, rfl⟩ := exists_of_map_eq_ok h
                have hrest := ih hshown
                rw [List.length_append, hslashes]
                split
                · omega
                · omega
        · rw [if_neg hbracket] at h
          obtain ⟨shown, hshown, rfl⟩ := exists_of_map_eq_ok h
          have hrest := ih hshown
          rw [List.length_append, List.length_cons, hslashes]
          simp only [hbracket, hslash, decide_false, Bool.false_and, Bool.false_or]
          simp only [Nat.lt_irrefl, decide_false] at hrest
          omega

/-- What is visible of a text is no longer than the text. -/
theorem length_visible_le (t : Text) : (visible t).length ≤ t.length := List.length_filter_le _ _

/-- A text with a meaning is shown no longer than it is, and shorter when it holds markup. -/
theorem length_resolve_le {t shown : Text} (h : resolve t = .ok shown) :
    shown.length + (if hasMarkup false t = true then 1 else 0) ≤ t.length := by
  obtain ⟨meaning, hmeaning, rfl⟩ := exists_of_map_eq_ok h
  have hlength := length_resolveFrom_le hmeaning
  have hvisible := length_visible_le meaning
  simp only [Nat.lt_irrefl, decide_false, true_and] at hlength
  omega

/-- A text that is not escaped is shown as it is exactly when it holds no markup. -/
theorem resolve_eq_self_iff {t : Text} (hvisible : visible t = t) :
    resolve t = .ok t ↔ hasMarkup false t = false := by
  constructor
  · intro h
    have hlength := length_resolve_le h
    by_contra hmarkup
    rw [if_pos (by simpa using hmarkup)] at hlength
    omega
  · intro h
    have hread : Reads [] [] t t [] := reads_unescaped 0 h (fun _ => rfl) (by decide)
    rw [hread.resolve_eq, hvisible]

/-- An escaped text behind an inert one is shown as it is. -/
theorem resolve_append_escape {mark t : Text} (hmark : IsInert mark)
    (hspelled : isSpelled false t = true) (hending : endingSlashes t ≠ 1)
    (hvisible : visible (mark ++ t) = mark ++ t) :
    resolve (mark ++ escape t) = .ok (mark ++ t) := by
  have htext : Reads [] [] (escape t) t [] :=
    reads_escape hspelled hending (fun _ => rfl) (by decide)
  have hwhole := hmark.reads.append htext
  rw [hwhole.resolve_eq, hvisible]

/-- An inert text is shown as it is. -/
theorem IsInert.resolve_eq {t : Text} (h : IsInert t) (hvisible : visible t = t) :
    resolve t = .ok t := by
  have hread : Reads [] [] t t [] := h.reads
  rw [hread.resolve_eq, hvisible]

end Markup

/-! ## Tables -/

/-- The parameters of an action in one text: each name with its value. -/
def Action.shownParams (a : Action) : Text :=
  Text.join ", " ((a.params.getD []).map fun (name, value) => name ++ "=" ++ value)

/-- The row of an action: its index, its id, its kind and its parameters. -/
def Action.shownRow (a : Action) (index : Nat) : Text :=
  Text.join " | " [Text.ofNat index, a.id, a.kind.name, a.shownParams] ++ "\n"

/-- The rows of actions, in order, from an index on. -/
def shownRows (start : Nat) (actions : List Action) : Text :=
  ((actions.zipIdx start).map fun (a, i) => a.shownRow i).flatten

/-- The table of a workflow: its label, and a row for each action. -/
def Workflow.shownTable (w : Workflow) : Text :=
  "<table Button: " ++ w.label ++ ">\n" ++ "# | id | type | params" ++ "\n" ++
    shownRows 0 w.actions ++ "</table>\n"

/-- The texts of a workflow that are shown in its table, besides numbers and kinds. -/
def Workflow.shownTexts (w : Workflow) : List Text :=
  w.label :: w.actions.flatMap fun a => [a.id, a.shownParams]

/-- A text that is shown as it is when it was escaped: every backslash in front of an opening
bracket stands in front of a tag, and the text does not end in a single backslash. -/
structure Markup.IsKept (t : Text) : Prop where
  /-- Every backslash in front of an opening bracket stands in front of a tag. -/
  spelled : isSpelled false t = true
  /-- The text does not end in a single backslash. -/
  ending : endingSlashes t ≠ 1

/-- A workflow with a label and with parameters that are shown as they are when they were
escaped. -/
structure Workflow.IsKept (w : Workflow) : Prop where
  /-- The label is. -/
  label : Markup.IsKept w.label
  /-- The parameters are. -/
  params : ∀ a ∈ w.actions, Markup.IsKept a.shownParams

namespace Cli

open Markup Job

/-- A table with a title that has a meaning. -/
theorem table_eq {title shown : Text} (h : resolve title = .ok shown) (columns : List Text)
    (rows : List (List Text)) : Frame.table title columns rows =
      ((rows.mapM Frame.row).map List.flatten).map fun contents =>
        "<table " ++ shown ++ ">\n" ++ Text.join " | " columns ++ "\n" ++ contents ++
          "</table>\n" := by
  unfold Frame.table
  rw [h]
  cases rows.mapM Frame.row with
  | error e => rfl
  | ok rows => rfl

/-- The row of an action shows what its id means. -/
theorem row_actionRow {a : Action} (hkept : Markup.IsKept a.shownParams)
    (hvisible : visible a.shownParams = a.shownParams) (index : Nat) :
    Frame.row (actionRow index a) =
      (resolve a.id).map fun id => Action.shownRow { a with id := id } index := by
  have hindex : resolve (Text.ofNat index) = .ok (Text.ofNat index) :=
    IsInert.resolve_eq (SurfaceState.holdsOfNumerals_inert.ofNat index)
      (SurfaceState.visible_eq_self_iff.mpr (SurfaceState.holdsOfNumerals_visible.ofNat index))
  have hkind : resolve a.kind.name = .ok a.kind.name := by
    have hinert : IsInert a.kind.name := by cases a.kind <;> decide
    have hvisible : visible a.kind.name = a.kind.name := by cases a.kind <;> decide
    exact hinert.resolve_eq hvisible
  have hnothing : IsInert [] := by decide
  have hparams : resolve (escape a.shownParams) = .ok a.shownParams :=
    resolve_append_escape hnothing hkept.spelled hkept.ending hvisible
  have hrow : actionRow index a =
    [Text.ofNat index, a.id, a.kind.name, escape a.shownParams] := rfl
  unfold Frame.row
  rw [hrow]
  cases hid : resolve a.id with
  | error e => simp [List.mapM_cons, hindex, hid, Except.map]; rfl
  | ok id => simp [List.mapM_cons, hindex, hid, hkind, hparams, Except.map]; rfl

/-- The actions with their ids as they are shown, in order. -/
def withShownIds (actions : List Action) : Except MarkupError (List Action) :=
  actions.mapM fun a => (resolve a.id).map fun id => { a with id := id }

/-- The rows of actions show what their ids mean. The induction is on the actions. -/
theorem mapM_row {actions : List Action} (hkept : ∀ a ∈ actions, Markup.IsKept a.shownParams)
    (hvisible : ∀ a ∈ actions, visible a.shownParams = a.shownParams) (start : Nat) :
    (((actions.zipIdx start).map fun (a, i) => actionRow i a).mapM Frame.row).map List.flatten =
      (withShownIds actions).map (shownRows start) := by
  induction actions generalizing start with
  | nil => rfl
  | cons a rest ih =>
    have hrest := ih (fun b hb => hkept b (List.mem_cons_of_mem _ hb))
      (fun b hb => hvisible b (List.mem_cons_of_mem _ hb)) (start + 1)
    have hrow := row_actionRow (hkept a List.mem_cons_self) (hvisible a List.mem_cons_self) start
    unfold withShownIds at hrest ⊢
    rw [List.zipIdx_cons, List.map_cons, List.mapM_cons, List.mapM_cons]
    dsimp only
    rw [hrow]
    cases resolve a.id with
    | error e => rfl
    | ok id =>
      generalize (List.mapM Frame.row _) = rows at hrest ⊢
      generalize (List.mapM _ rest : Except MarkupError (List Action)) = shown at hrest ⊢
      cases rows with
      | error e =>
        cases shown with
        | error e' =>
          cases hrest
          rfl
        | ok actions => cases hrest
      | ok rows =>
        cases shown with
        | error e' => cases hrest
        | ok actions =>
          have hrows : rows.flatten = shownRows (start + 1) actions := Except.ok.inj hrest
          change Except.ok (Action.shownRow { a with id := id } start ++ rows.flatten) =
            .ok (Action.shownRow { a with id := id } start ++ shownRows (start + 1) actions)
          rw [hrows]

/-- The table of a workflow shows what the ids mean. -/
theorem actionTable_eq {w : Workflow} (hkept : w.IsKept)
    (hvisible : ∀ t ∈ w.shownTexts, visible t = t) :
    actionTable w = (withShownIds w.actions).map fun actions =>
      Workflow.shownTable { w with actions := actions } := by
  have htitle : resolve ("Button: " ++ escape w.label) = .ok ("Button: " ++ w.label) := by
    have hmark : IsInert "Button: " := by decide
    have hlabel : visible w.label = w.label := hvisible _ List.mem_cons_self
    exact resolve_append_escape hmark hkept.label.spelled hkept.label.ending
      (SurfaceState.visible_append rfl hlabel)
  have hparams : ∀ a ∈ w.actions, visible a.shownParams = a.shownParams := fun a ha =>
    hvisible _ (List.mem_cons_of_mem _ (List.mem_flatMap.mpr ⟨a, ha, by simp⟩))
  unfold actionTable
  rw [table_eq htitle, mapM_row hkept.params hparams]
  cases withShownIds w.actions with
  | error e => rfl
  | ok actions =>
    have hcolumns : Text.join " | " ["#", "id", "type", "params"] =
        ("# | id | type | params" : Text) := by decide
    have hfront : ("<table Button: " : Text) = "<table " ++ "Button: " := by decide
    simp only [Except.map, Workflow.shownTable, hcolumns, hfront, List.append_assoc]

/-- Ids are shown as they are when no id holds markup. -/
theorem withShownIds_eq {actions : List Action} (hvisible : ∀ a ∈ actions, visible a.id = a.id)
    (h : ∀ a ∈ actions, hasMarkup false a.id = false) : withShownIds actions = .ok actions := by
  unfold withShownIds
  induction actions with
  | nil => rfl
  | cons a rest ih =>
    have hrest := ih (fun b hb => hvisible b (List.mem_cons_of_mem _ hb))
      fun b hb => h b (List.mem_cons_of_mem _ hb)
    have hid := (resolve_eq_self_iff (hvisible a List.mem_cons_self)).mpr (h a List.mem_cons_self)
    rw [List.mapM_cons, hid, hrest]
    rfl

/-- Rows of actions with their ids as they are shown are no longer than the rows of the actions, and
as long only when no id holds markup. The induction is on the actions. -/
theorem length_shownRows_le {actions shown : List Action} (h : withShownIds actions = .ok shown)
    (start : Nat) : (shownRows start shown).length ≤ (shownRows start actions).length ∧
      ((shownRows start shown).length = (shownRows start actions).length →
        ∀ a ∈ actions, hasMarkup false a.id = false) := by
  unfold withShownIds at h
  induction actions generalizing shown start with
  | nil =>
    cases h
    exact ⟨Nat.le_refl _, nofun⟩
  | cons a rest ih =>
    rw [List.mapM_cons] at h
    obtain ⟨b, hb, hrest⟩ := exists_of_bind_eq_ok h
    obtain ⟨bs, hbs, hshown⟩ := exists_of_bind_eq_ok hrest
    obtain rfl : b :: bs = shown := Except.ok.inj hshown
    obtain ⟨id, hid, rfl⟩ := exists_of_map_eq_ok hb
    obtain ⟨hle, heq⟩ := ih hbs (start + 1)
    have hlength := length_resolve_le hid
    have hrow (x : Action) (xs : List Action) : shownRows start (x :: xs) =
        x.shownRow start ++ shownRows (start + 1) xs := rfl
    have hrowlength (i : Text) : (Action.shownRow { a with id := i } start).length =
        i.length + (Action.shownRow { a with id := [] } start).length := by
      have hsame : Action.shownParams { a with id := i } =
          Action.shownParams { a with id := [] } := rfl
      simp [Action.shownRow, Text.join, hsame]
      omega
    have ha : (a.shownRow start).length = _ := hrowlength a.id
    have hi := hrowlength id
    rw [hrow, hrow, List.length_append, List.length_append]
    refine ⟨by omega, fun hsame => List.forall_mem_cons.mpr ⟨?_, heq (by omega)⟩⟩
    by_contra hmarkup
    rw [if_pos (by simpa using hmarkup)] at hlength
    omega

/-- The table of a workflow is that of the workflow with the ids as they are shown only when no id
holds markup. -/
theorem hasMarkup_of_shownTable_eq {w : Workflow} {actions : List Action}
    (h : withShownIds w.actions = .ok actions)
    (htable : Workflow.shownTable { w with actions := actions } = w.shownTable) :
    ∀ a ∈ w.actions, hasMarkup false a.id = false := by
  refine (length_shownRows_le h 0).2 ?_
  have hlength := congrArg List.length htable
  simpa [Workflow.shownTable] using hlength

/-- The table of a plain workflow is plain. -/
theorem isPlain_shownTable {w : Workflow} (h : w.IsPlain) : w.shownTable.IsPlain := by
  obtain ⟨hlabel, hactions⟩ := h
  have hparams {a : Action} (ha : a ∈ w.actions) : a.shownParams.IsPlain := by
    refine Text.isPlain_join (by simp) fun t ht => ?_
    obtain ⟨p, hp, rfl⟩ := List.mem_map.mp ht
    cases hps : a.params with
    | none =>
      rw [hps] at hp
      cases hp
    | some ps =>
      rw [hps] at hp
      obtain ⟨hname, hvalue⟩ := (hactions a ha).2 ps hps p hp
      simp [hname, hvalue]
  have hrows : (shownRows 0 w.actions).IsPlain := by
    refine Text.isPlain_flatten fun t ht => ?_
    obtain ⟨⟨a, i⟩, hai, rfl⟩ := List.mem_map.mp ht
    have ha : a ∈ w.actions := (List.mem_zipIdx' hai).2 ▸ List.getElem_mem _
    have hkind : a.kind.name.IsPlain := List.all_eq_true.mp a.kind.all_isChar_name
    refine Text.isPlain_append.mpr ⟨Text.isPlain_join (by simp) ?_, by simp⟩
    simp [(hactions a ha).1, hkind, hparams ha]
  simp [Workflow.shownTable, hlabel, hrows]

/-- The stored workflow is shown as a table when it has an action. -/
theorem exec_showStored {s : Shell} {w : Workflow}
    (hstored : (shelfOf s).loadWorkflow s.settings.configKey = .ok (some w))
    (hactions : w.actions ≠ []) : showStored.exec s =
      match actionTable w with
      | .ok table => (printText table).exec s
      | .error e => (.error (.failed (markupFailure e)), s) := by
  have hfound : (stored unreadable).exec s = (.ok w, s) := by
    unfold stored
    rw [exec_bind, exec_stored?, hstored]
    rfl
  unfold showStored
  rw [exec_bind, hfound]
  dsimp only
  rw [if_neg (by simpa using hactions), exec_bind, exec_ofExcept]
  cases actionTable w with
  | error e => rfl
  | ok table => rfl

section Processes

variable {m : Machine} {around : Surroundings} {args : List Text} {s : Shell} {w : Workflow}

end Processes

end Cli

end PushButton
