import PushButton.Proofs.Workflow.Checks
import PushButton.Proofs.Workflow.Stored

/-!
# What describes a workflow

A JSON value describes a workflow when it is an object with a text as label and a list of actions;
what else it holds does not matter. A value that describes none has defects, and the reader reports
every one of them once, in the order of the document.
-/

namespace PushButton

namespace Json

/-! ## Values that describe workflows -/

/-- An integer with too many digits stands in a value. -/
inductive HasLongInt : Json → Prop
  /-- The value is one. -/
  | int {n : Int} : Text.isTooLong n = true → HasLongInt (.int n)
  /-- An item of the array has one. -/
  | item {items : List Json} {v : Json} : v ∈ items → HasLongInt v → HasLongInt (.array items)
  /-- A field of the object has one. -/
  | field {fields : List (Text × Json)} {name : Text} {v : Json} : (name, v) ∈ fields →
      HasLongInt v → HasLongInt (.object fields)

/-- A value describes an id: it is a text, or a number that is written as that text. -/
inductive DescribesId : Json → Text → Prop
  /-- A text is the id. -/
  | text (t : Text) : DescribesId (.text t) t
  /-- An integer is written, if it has not too many digits. -/
  | int {n : Int} : ¬ Text.isTooLong n = true → DescribesId (.int n) (Text.ofInt n)
  /-- Any other number is written. -/
  | float (x : Float) : DescribesId (.float x) (Decimal.written x)

/-- The text of the value of a parameter, unless there is no value: a text itself, a truth value in
small letters, and any other value as it is written. -/
def paramText? : Json → Option Text
  | .null => none
  | .text t => some t
  | .bool b => some (if b then "true" else "false")
  | v => some (Datum.ofJson v).shown

/-- The parameters in the fields of an object: those that have a value, in their order. A name that
stands there again keeps its place and gets the later value. -/
def paramsOf (fields : List (Text × Json)) : List (Text × Text) :=
  collect (fields.filterMap fun (name, v) => v.paramText?.map fun t => (name, t))

/-- A field describes parameters, or that there are none. -/
inductive DescribesParams : Option Json → Option (List (Text × Text)) → Prop
  /-- The field is missing. -/
  | missing : DescribesParams none none
  /-- The field has no value. -/
  | null : DescribesParams (some .null) none
  /-- The field is an object without integers that have too many digits. -/
  | object {fields : List (Text × Json)} : ¬ (Json.object fields).HasLongInt →
      DescribesParams (some (.object fields)) (some (paramsOf fields))

/-- An object describes an action. -/
inductive DescribesAction : Json → Action → Prop
  /-- It has an id, the name of a kind, and parameters or none. -/
  | fields {fields : List (Text × Json)} {v : Json} {a : Action} : lookup "id" fields = some v →
      v.DescribesId a.id → lookup "type" fields = some (.text a.kind.name) →
      DescribesParams (lookup "params" fields) a.params → DescribesAction (.object fields) a

/-- The label in the fields of an object, with the name of its field. -/
def labelField? (fields : List (Text × Json)) : Option (Text × Json) :=
  match lookup "buttonLabel" fields with
  | some v => some ("buttonLabel", v)
  | none => (lookup "button_label" fields).map fun v => ("button_label", v)

/-- A field describes the label of a workflow. -/
inductive DescribesLabel : Option (Text × Json) → Text → Prop
  /-- Without it, the label is the standard one. -/
  | missing : DescribesLabel none Workflow.standardLabel
  /-- A text is the label. -/
  | text (name t : Text) : DescribesLabel (some (name, .text t)) t

/-- A field describes the actions of a workflow. -/
inductive DescribesActions : Option Json → List Action → Prop
  /-- Without it, there are none. -/
  | missing : DescribesActions none []
  /-- Every item of a list describes an action. -/
  | array {items : List Json} {actions : List Action} :
      List.Forall₂ DescribesAction items actions → DescribesActions (some (.array items)) actions

/-- An object describes a workflow. -/
inductive DescribesWorkflow : Json → Workflow → Prop
  /-- It has a label and a list of actions, or lacks one or the other. -/
  | fields {fields : List (Text × Json)} {w : Workflow} :
      DescribesLabel (labelField? fields) w.label →
      DescribesActions (lookup "actions" fields) w.actions → DescribesWorkflow (.object fields) w

/-! ## Defects -/

/-- A value is no id: neither a text nor a number. -/
def IsNoId (v : Json) : Prop :=
  match v with
  | .text _ | .int _ | .float _ => False
  | _ => True

/-- Something is wrong with a value that should be an action. -/
inductive ActionDefect : Json → Problem → Prop
  /-- It is no object. -/
  | notAction {v : Json} : (∀ fields, v ≠ .object fields) → ActionDefect v ⟨[], .notAction⟩
  /-- The id is missing. -/
  | noId {fields : List (Text × Json)} : lookup "id" fields = none →
      ActionDefect (.object fields) ⟨[.field "id"], .missing⟩
  /-- The id is neither a text nor a number. -/
  | id {fields : List (Text × Json)} {v : Json} : lookup "id" fields = some v → v.IsNoId →
      ActionDefect (.object fields) ⟨[.field "id"], .notText⟩
  /-- The id is an integer with too many digits. -/
  | longId {fields : List (Text × Json)} {n : Int} : lookup "id" fields = some (.int n) →
      Text.isTooLong n = true → ActionDefect (.object fields) ⟨[.field "id"], .tooManyDigits⟩
  /-- The type is missing. -/
  | noType {fields : List (Text × Json)} : lookup "type" fields = none →
      ActionDefect (.object fields) ⟨[.field "type"], .missing⟩
  /-- The type is not the name of a kind. -/
  | type {fields : List (Text × Json)} {v : Json} : lookup "type" fields = some v →
      (∀ k : ActionKind, v ≠ .text k.name) → (∀ t, v = .text t → t.IsPlain) →
      ActionDefect (.object fields) ⟨[.field "type"], .notKind⟩
  /-- The type is a text with half of a surrogate pair. -/
  | loneType {fields : List (Text × Json)} {t : Text} : lookup "type" fields = some (.text t) →
      ¬ t.IsPlain → ActionDefect (.object fields) ⟨[.field "type"], .notEncodable⟩
  /-- The parameters are something else than nothing and an object. -/
  | params {fields : List (Text × Json)} {v : Json} : lookup "params" fields = some v →
      v ≠ .null → (∀ ps, v ≠ .object ps) →
      ActionDefect (.object fields) ⟨[.field "params"], .notMapping⟩
  /-- An integer with too many digits stands in the parameters. -/
  | longParams {fields ps : List (Text × Json)} : lookup "params" fields = some (.object ps) →
      (Json.object ps).HasLongInt →
      ActionDefect (.object fields) ⟨[.field "params"], .tooManyDigits⟩

/-- Something is wrong with the fields of an object that should describe a workflow. -/
inductive WorkflowDefect (fields : List (Text × Json)) : Problem → Prop
  /-- The label is no text. -/
  | label {name : Text} {v : Json} : labelField? fields = some (name, v) → (∀ t, v ≠ .text t) →
      WorkflowDefect fields ⟨[.field name], .notText⟩
  /-- The actions are no list. -/
  | actions {v : Json} : lookup "actions" fields = some v → (∀ items, v ≠ .array items) →
      WorkflowDefect fields ⟨[.field "actions"], .notList⟩
  /-- Something is wrong with an action. -/
  | action {items : List Json} {i : Nat} {v : Json} {p : Problem} :
      lookup "actions" fields = some (.array items) → items[i]? = some v → v.ActionDefect p →
      WorkflowDefect fields ((p.under (.index i)).under (.field "actions"))

end Json

/-! ## Numbers that cannot be written -/

namespace Datum

mutual

/-- A JSON value has no text when an integer with too many digits stands in it. -/
theorem isUnwritable_ofJson : ∀ v : Json, (ofJson v).isUnwritable = true ↔ v.HasLongInt
  | .null | .bool _ | .float _ | .text _ => ⟨nofun, nofun⟩
  | .int n => ⟨.int, fun h => by cases h; assumption⟩
  | .array items => by
    rw [ofJson, isUnwritable, anyUnwritable_ofItems items]
    constructor
    · rintro ⟨v, hv, hlong⟩
      exact .item hv hlong
    · rintro (_ | ⟨hv, hlong⟩)
      exact ⟨_, hv, hlong⟩
  | .object fields => by
    rw [ofJson, isUnwritable, anyEntryUnwritable_ofFields fields]
    constructor
    · rintro ⟨f, hf, hlong⟩
      exact .field hf hlong
    · rintro (_ | _ | ⟨hf, hlong⟩)
      exact ⟨_, hf, hlong⟩

/-- One of the items of an array has no text. -/
theorem anyUnwritable_ofItems : ∀ items : List Json,
    anyUnwritable (ofItems items) = true ↔ ∃ v ∈ items, v.HasLongInt
  | [] => by simp [ofItems, anyUnwritable]
  | item :: rest => by
    rw [ofItems, anyUnwritable, Bool.or_eq_true, isUnwritable_ofJson item,
      anyUnwritable_ofItems rest, List.exists_mem_cons_iff]

/-- One of the fields of an object has no text. -/
theorem anyEntryUnwritable_ofFields : ∀ fields : List (Text × Json),
    anyEntryUnwritable (ofFields fields) = true ↔ ∃ f ∈ fields, f.2.HasLongInt
  | [] => by simp [ofFields, anyEntryUnwritable]
  | (name, v) :: rest => by
    have hname : (text name).isUnwritable = false := rfl
    rw [ofFields, anyEntryUnwritable, hname, Bool.false_or, Bool.or_eq_true,
      isUnwritable_ofJson v, anyEntryUnwritable_ofFields rest, List.exists_mem_cons_iff]

end

/-- The entries of an object are its fields. -/
theorem ofFields_eq_map (fields : List (Text × Json)) :
    ofFields fields = fields.map fun f => (.text f.1, ofJson f.2) := by
  induction fields with
  | nil => rfl
  | cons f rest ih =>
    obtain ⟨name, v⟩ := f
    rw [ofFields, ih, List.map_cons]

/-- A field of an object is looked up under its name. -/
theorem entry?_ofFields (name : Text) (fields : List (Text × Json)) :
    entry? name (ofFields fields) = (Json.lookup name fields).map ofJson := by
  unfold entry?
  induction fields with
  | nil => rfl
  | cons f rest ih =>
    obtain ⟨k, v⟩ := f
    have hsame : sameKey (.text k) (.text name) = decide (k = name) := rfl
    rw [ofFields, List.find?_cons, Json.lookup]
    dsimp only
    rw [hsame]
    by_cases hk : k = name
    · rw [if_pos hk, decide_eq_true hk]
      rfl
    · rw [if_neg hk, decide_eq_false hk]
      exact ih

end Datum

/-! ## The checks of the parts -/

namespace Checked

open Json

variable {α : Type}

/-- A field that has to be there. -/
theorem Reports.required {check : Datum → Checked α} {P : Json → α → Prop}
    {D : Json → Problem → Prop} (h : ∀ v, Reports (P v) (D v) (check (.ofJson v))) (name : Text)
    (fields : List (Text × Json)) :
    Reports (fun y => ∃ v, lookup name fields = some v ∧ P v y)
      (fun p => ∃ q, (lookup name fields = none ∧ q = ⟨[], .missing⟩ ∨
        ∃ v, lookup name fields = some v ∧ D v q) ∧ p = q.under (.field name))
      (Checked.required name check (Datum.ofFields fields)) := by
  unfold Checked.required
  refine Reports.under ?_ (.field name)
  rw [Datum.entry?_ofFields]
  cases lookup name fields with
  | none =>
    refine .refuse (fun y ⟨v, hv, _⟩ => nomatch hv) fun p => ?_
    exact ⟨fun hp => hp.elim (·.2) fun ⟨v, hv, _⟩ => (nomatch hv), fun hp => .inl ⟨rfl, hp⟩⟩
  | some v =>
    refine (h v).congr (fun y => ?_) fun p => ?_
    · exact ⟨fun ⟨v', hv, hy⟩ => by cases hv; exact hy, fun hy => ⟨v, rfl, hy⟩⟩
    · constructor
      · rintro (⟨hv, -⟩ | ⟨v', hv, hp⟩)
        · cases hv
        · cases hv
          exact hp
      · exact fun hp => .inr ⟨v, rfl, hp⟩

/-- A field that has a default. -/
theorem Reports.optional {check : Datum → Checked α} {P : Json → α → Prop}
    {D : Json → Problem → Prop} (h : ∀ v, Reports (P v) (D v) (check (.ofJson v))) (name : Text)
    (default : α) (fields : List (Text × Json)) :
    Reports (fun y => lookup name fields = none ∧ y = default ∨
        ∃ v, lookup name fields = some v ∧ P v y)
      (fun p => ∃ q, (∃ v, lookup name fields = some v ∧ D v q) ∧ p = q.under (.field name))
      (Checked.optional name check default (Datum.ofFields fields)) := by
  unfold Checked.optional
  rw [Datum.entry?_ofFields]
  cases lookup name fields with
  | none =>
    refine .passes (fun y => ?_) fun p ⟨q, ⟨v, hv, _⟩, _⟩ => nomatch hv
    exact ⟨fun hy => hy.elim (·.2) fun ⟨v, hv, _⟩ => (nomatch hv), fun hy => .inl ⟨rfl, hy⟩⟩
  | some v =>
    refine ((h v).congr (fun y => ?_) fun p => ?_).under (.field name)
    · constructor
      · rintro (⟨hv, -⟩ | ⟨v', hv, hy⟩)
        · cases hv
        · cases hv
          exact hy
      · exact fun hy => .inr ⟨v, rfl, hy⟩
    · exact ⟨fun ⟨v', hv, hp⟩ => by cases hv; exact hp, fun hp => ⟨v, rfl, hp⟩⟩

/-- A text is checked. -/
theorem reports_text (v : Json) : Reports (fun t => v = .text t)
    (fun p => (∀ t, v ≠ .text t) ∧ p = ⟨[], .notText⟩) (text (.ofJson v)) := by
  cases v with
  | text t =>
    refine .passes (fun y => ?_) fun p ⟨hno, _⟩ => hno t rfl
    exact ⟨fun h => by cases h; rfl, fun h => by rw [h]⟩
  | null | bool | int | float | array | object =>
    exact .refuse (fun y hy => nomatch hy) fun p => ⟨fun hp => hp.2, fun hp => ⟨nofun, hp⟩⟩

/-- A value that should be an id is neither a text nor a number, or has too many digits. -/
def IdDefect (v : Json) (p : Problem) : Prop :=
  v.IsNoId ∧ p = ⟨[], .notText⟩ ∨
    ∃ n, v = .int n ∧ Text.isTooLong n = true ∧ p = ⟨[], .tooManyDigits⟩

/-- An id is checked. -/
theorem reports_id (v : Json) : Reports (DescribesId v) (IdDefect v) (id (.ofJson v)) := by
  cases v with
  | text t =>
    refine .passes (fun y => ?_) fun p hp => hp.elim (·.1) fun ⟨n, hn, _⟩ => nomatch hn
    exact ⟨fun h => by cases h; rfl, fun h => by rw [h]; exact .text t⟩
  | int n =>
    change Reports _ _ (if Text.isTooLong n then refuse .tooManyDigits else .ok (Text.ofInt n))
    by_cases hlong : Text.isTooLong n = true
    · rw [if_pos hlong]
      refine .refuse (fun y hy => ?_) fun p => ?_
      · cases hy with
        | int hshort => exact hshort hlong
      · constructor
        · rintro (⟨⟨⟩, -⟩ | ⟨m, -, -, hp⟩)
          exact hp
        · exact fun hp => .inr ⟨n, rfl, hlong, hp⟩
    · rw [if_neg hlong]
      refine .passes (fun y => ?_) fun p hp => ?_
      · exact ⟨fun h => by cases h; rfl, fun h => by rw [h]; exact .int hlong⟩
      · rcases hp with ⟨⟨⟩, -⟩ | ⟨m, hm, hlong', -⟩
        cases hm
        exact hlong hlong'
  | float x =>
    refine .passes (fun y => ?_) fun p hp => hp.elim (·.1) fun ⟨n, hn, _⟩ => nomatch hn
    exact ⟨fun h => by cases h; rfl, fun h => by rw [h]; exact .float x⟩
  | null | bool | array | object =>
    refine .refuse (fun y hy => nomatch hy) fun p => ?_
    exact ⟨fun hp => hp.elim (·.2) fun ⟨n, hn, _⟩ => (nomatch hn), fun hp => .inl ⟨trivial, hp⟩⟩

/-- A value that should be the name of a kind is another one, or has half of a surrogate pair. -/
def KindDefect (v : Json) (p : Problem) : Prop :=
  ((∀ k : ActionKind, v ≠ .text k.name) ∧ (∀ t, v = .text t → t.IsPlain)) ∧ p = ⟨[], .notKind⟩ ∨
    ∃ t, v = .text t ∧ ¬ t.IsPlain ∧ p = ⟨[], .notEncodable⟩

/-- The name of a kind is checked. -/
theorem reports_kind (v : Json) :
    Reports (fun k : ActionKind => v = .text k.name) (KindDefect v) (kind (.ofJson v)) := by
  have hplainName (k : ActionKind) : k.name.IsPlain := List.all_eq_true.mp k.all_isChar_name
  have hofName {t : Text} {k : ActionKind} (h : ActionKind.ofName? t = some k) : k.name = t := by
    simpa using List.find?_some h
  cases v with
  | text t =>
    rw [Datum.ofJson, kind]
    by_cases hplain : t.IsPlain
    · rw [if_pos (List.all_eq_true.mpr hplain)]
      cases hname : ActionKind.ofName? t with
      | some k =>
        refine .passes (fun k' => ?_) fun p hp => ?_
        · constructor
          · rintro ⟨⟩
            exact Option.some.inj ((ActionKind.ofName?_name k').symm.trans hname)
          · rintro rfl
            rw [hofName hname]
        · rcases hp with ⟨⟨hno, -⟩, -⟩ | ⟨t', ht, hlone, -⟩
          · exact hno k (by rw [hofName hname])
          · cases ht
            exact hlone hplain
      | none =>
        have hno (k : ActionKind) : Json.text t ≠ .text k.name := by
          rintro ⟨⟩
          rw [k.ofName?_name] at hname
          cases hname
        refine .refuse hno fun p => ?_
        constructor
        · rintro (⟨-, hp⟩ | ⟨t', ht, hlone, -⟩)
          · exact hp
          · cases ht
            exact absurd hplain hlone
        · exact fun hp => .inl ⟨⟨hno, fun t' ht => by cases ht; exact hplain⟩, hp⟩
    · rw [if_neg (fun h => hplain (List.all_eq_true.mp h))]
      refine .refuse (fun k hk => ?_) fun p => ?_
      · cases hk
        exact hplain (hplainName k)
      · constructor
        · rintro (⟨⟨-, hall⟩, -⟩ | ⟨t', -, -, hp⟩)
          · exact absurd (hall t rfl) hplain
          · exact hp
        · exact fun hp => .inr ⟨t, rfl, hplain, hp⟩
  | null | bool | int | float | array | object =>
    refine .refuse (fun k hk => nomatch hk) fun p => ?_
    constructor
    · rintro (⟨-, hp⟩ | ⟨t, ht, -⟩)
      · exact hp
      · cases ht
    · exact fun hp => .inl ⟨⟨nofun, nofun⟩, hp⟩

/-- Parameters cannot be written when an integer with too many digits stands in them. -/
theorem any_isUnwritableParam (fields : List (Text × Json)) :
    (Datum.ofFields fields).any isUnwritableParam = true ↔ (Json.object fields).HasLongInt := by
  rw [← Datum.isUnwritable_ofJson, Datum.ofJson, Datum.isUnwritable]
  induction fields with
  | nil => exact .rfl
  | cons f rest ih =>
    obtain ⟨name, v⟩ := f
    have hname : (Datum.text name).isUnwritable = false := rfl
    have hvalue : isUnwritableParam (.text name, .ofJson v) = (Datum.ofJson v).isUnwritable := by
      cases v with
      | null => rfl
      | bool | int | float | text | array | object =>
        rw [Datum.ofJson, isUnwritableParam, hname, Bool.false_or]
        nofun
    rw [Datum.ofFields, List.any_cons, Datum.anyEntryUnwritable, hname, hvalue, Bool.or_eq_true,
      Bool.or_eq_true, Bool.false_or, ih]

/-- The parameters in the fields of an object. -/
theorem paramsOf_eq (fields : List (Text × Json)) :
    Checked.paramsOf (Datum.ofFields fields) = Json.paramsOf fields := by
  have hfold (acc : List (Text × Text)) : (Datum.ofFields fields).foldl putParam acc =
      (fields.filterMap fun f => f.2.paramText?.map fun t => (f.1, t)).foldl
        (fun acc p => put p.1 p.2 acc) acc := by
    induction fields generalizing acc with
    | nil => rfl
    | cons f rest ih =>
      obtain ⟨name, v⟩ := f
      rw [Datum.ofFields, List.foldl_cons, ih]
      cases v <;> rfl
  exact hfold []

/-- A value that should be parameters is something else, or has an integer with too many digits. -/
def ParamsDefect (v : Json) (p : Problem) : Prop :=
  (v ≠ .null ∧ ∀ ps, v ≠ .object ps) ∧ p = ⟨[], .notMapping⟩ ∨
    ∃ ps, v = .object ps ∧ (Json.object ps).HasLongInt ∧ p = ⟨[], .tooManyDigits⟩

/-- Parameters are checked. -/
theorem reports_params (v : Json) :
    Reports (fun ps => DescribesParams (some v) ps) (ParamsDefect v) (params (.ofJson v)) := by
  cases v with
  | null =>
    refine .passes (fun ps => ?_) fun p hp => ?_
    · exact ⟨fun h => by cases h; rfl, fun h => by rw [h]; exact .null⟩
    · rcases hp with ⟨⟨hnull, -⟩, -⟩ | ⟨ps, hps, -⟩
      · exact hnull rfl
      · cases hps
  | object fields =>
    rw [Datum.ofJson, params]
    by_cases hlong : (Json.object fields).HasLongInt
    · rw [if_pos ((any_isUnwritableParam fields).mpr hlong)]
      refine .refuse (fun ps hps => ?_) fun p => ?_
      · cases hps with
        | object hshort => exact hshort hlong
      · constructor
        · rintro (⟨⟨-, hno⟩, -⟩ | ⟨ps, -, -, hp⟩)
          · exact absurd rfl (hno fields)
          · exact hp
        · exact fun hp => .inr ⟨fields, rfl, hlong, hp⟩
    · rw [if_neg (fun h => hlong ((any_isUnwritableParam fields).mp h)), paramsOf_eq]
      refine .passes (fun ps => ?_) fun p hp => ?_
      · exact ⟨fun h => by cases h; rfl, fun h => by rw [h]; exact .object hlong⟩
      · rcases hp with ⟨⟨-, hno⟩, -⟩ | ⟨ps, hps, hlong', -⟩
        · exact hno fields rfl
        · cases hps
          exact hlong hlong'
  | bool | int | float | text | array =>
    refine .refuse (fun ps hps => by cases hps) fun p => ?_
    constructor
    · rintro (⟨-, hp⟩ | ⟨ps, hps, -⟩)
      · exact hp
      · cases hps
    · intro hp
      refine .inl ⟨⟨fun h => ?_, fun ps h => ?_⟩, hp⟩
      · cases h
      · cases h

/-- Parameters are described by nothing, or by the value of their field. -/
theorem describesParams_iff (field : Option Json) (ps : Option (List (Text × Text))) :
    DescribesParams field ps ↔
      field = none ∧ ps = none ∨ ∃ v, field = some v ∧ DescribesParams (some v) ps := by
  constructor
  · intro h
    cases field with
    | none =>
      cases h
      exact .inl ⟨rfl, rfl⟩
    | some v => exact .inr ⟨v, rfl, h⟩
  · rintro (⟨rfl, rfl⟩ | ⟨v, rfl, h⟩)
    · exact .missing
    · exact h

/-- An object describes an action by three of its fields. -/
theorem describesAction_object_iff (fields : List (Text × Json)) (a : Action) :
    DescribesAction (.object fields) a ↔
      (∃ v, lookup "id" fields = some v ∧ v.DescribesId a.id) ∧
      (∃ v, lookup "type" fields = some v ∧ v = .text a.kind.name) ∧
      DescribesParams (lookup "params" fields) a.params := by
  constructor
  · rintro ⟨hv, hid, hkind, hparams⟩
    exact ⟨⟨_, hv, hid⟩, ⟨_, hkind, rfl⟩, hparams⟩
  · rintro ⟨⟨v, hv, hid⟩, ⟨x, hx, rfl⟩, hparams⟩
    exact .fields hv hid hx hparams

/-- The defects of an object that should describe an action are those of its id, its type and its
parameters. -/
theorem actionDefect_object_iff (fields : List (Text × Json)) (p : Problem) :
    (Json.object fields).ActionDefect p ↔
      (∃ q, (lookup "id" fields = none ∧ q = ⟨[], .missing⟩ ∨
        ∃ v, lookup "id" fields = some v ∧ IdDefect v q) ∧ p = q.under (.field "id")) ∨
      (∃ q, (lookup "type" fields = none ∧ q = ⟨[], .missing⟩ ∨
        ∃ v, lookup "type" fields = some v ∧ KindDefect v q) ∧ p = q.under (.field "type")) ∨
      ∃ q, (∃ v, lookup "params" fields = some v ∧ ParamsDefect v q) ∧
        p = q.under (.field "params") := by
  constructor
  · intro hp
    cases hp with
    | notAction hno => exact absurd rfl (hno fields)
    | noId hnone => exact .inl ⟨⟨[], .missing⟩, .inl ⟨hnone, rfl⟩, rfl⟩
    | id hv hno => exact .inl ⟨⟨[], .notText⟩, .inr ⟨_, hv, .inl ⟨hno, rfl⟩⟩, rfl⟩
    | longId hv hlong =>
      exact .inl ⟨⟨[], .tooManyDigits⟩, .inr ⟨_, hv, .inr ⟨_, rfl, hlong, rfl⟩⟩, rfl⟩
    | noType hnone => exact .inr (.inl ⟨⟨[], .missing⟩, .inl ⟨hnone, rfl⟩, rfl⟩)
    | type hv hno hplain =>
      exact .inr (.inl ⟨⟨[], .notKind⟩, .inr ⟨_, hv, .inl ⟨⟨hno, hplain⟩, rfl⟩⟩, rfl⟩)
    | loneType hv hlone =>
      exact .inr (.inl ⟨⟨[], .notEncodable⟩, .inr ⟨_, hv, .inr ⟨_, rfl, hlone, rfl⟩⟩, rfl⟩)
    | params hv hnull hno =>
      exact .inr (.inr ⟨⟨[], .notMapping⟩, ⟨_, hv, .inl ⟨⟨hnull, hno⟩, rfl⟩⟩, rfl⟩)
    | longParams hv hlong =>
      exact .inr (.inr ⟨⟨[], .tooManyDigits⟩, ⟨_, hv, .inr ⟨_, rfl, hlong, rfl⟩⟩, rfl⟩)
  · rintro (⟨q, hq, rfl⟩ | ⟨q, hq, rfl⟩ | ⟨q, ⟨v, hv, hq⟩, rfl⟩)
    · rcases hq with ⟨hnone, rfl⟩ | ⟨v, hv, ⟨hno, rfl⟩ | ⟨n, rfl, hlong, rfl⟩⟩
      · exact .noId hnone
      · exact .id hv hno
      · exact .longId hv hlong
    · rcases hq with ⟨hnone, rfl⟩ | ⟨v, hv, ⟨⟨hno, hplain⟩, rfl⟩ | ⟨t, rfl, hlone, rfl⟩⟩
      · exact .noType hnone
      · exact .type hv hno hplain
      · exact .loneType hv hlone
    · rcases hq with ⟨⟨hnull, hno⟩, rfl⟩ | ⟨ps, rfl, hlong, rfl⟩
      · exact .params hv hnull hno
      · exact .longParams hv hlong

/-- An action is checked: the id before the type, and the type before the parameters. -/
theorem reports_action (v : Json) :
    Reports (DescribesAction v) v.ActionDefect (action (.ofJson v)) := by
  cases v with
  | object fields =>
    have hid := Reports.required reports_id "id" fields
    have hkind := Reports.required reports_kind "type" fields
    have hparams := Reports.optional reports_params "params" none fields
    have hrest := hkind.both hparams fun p q hp hq => by
      obtain ⟨p', -, rfl⟩ := hp
      obtain ⟨q', -, rfl⟩ := hq
      exact Problem.before_of_rank (by decide) p' q'
    have hall := hid.both hrest fun p q hp hq => by
      obtain ⟨p', -, rfl⟩ := hp
      obtain ⟨q', -, rfl⟩ | ⟨q', -, rfl⟩ := hq
      · exact Problem.before_of_rank (by decide) p' q'
      · exact Problem.before_of_rank (by decide) p' q'
    rw [Datum.ofJson, action]
    refine (hall.map (Q := DescribesAction (.object fields)) _ fun a => ?_).congr (fun _ => .rfl)
      (actionDefect_object_iff fields)
    rw [describesAction_object_iff, describesParams_iff]
    constructor
    · exact fun ha => ⟨(a.id, a.kind, a.params), ha, rfl⟩
    · rintro ⟨⟨i, k, ps⟩, ha, rfl⟩
      exact ha
  | null | bool | int | float | text | array =>
    refine .refuse (fun a ha => by cases ha) fun p => ?_
    constructor
    · rintro ⟨⟩
      rfl
    · rintro rfl
      exact .notAction fun fields h => by cases h

/-- The items of a list are its data. -/
theorem ofItems_eq_map (items : List Json) : Datum.ofItems items = items.map Datum.ofJson := by
  induction items with
  | nil => rfl
  | cons item rest ih => rw [Datum.ofItems, ih, List.map_cons]

/-- The data of items are checked one after the other. -/
theorem items_map {β γ : Type} (check : β → Checked γ) (f : α → β) (index : Nat) (xs : List α) :
    items check index (xs.map f) = items (fun x => check (f x)) index xs := by
  induction xs generalizing index with
  | nil => rfl
  | cons x rest ih => rw [List.map_cons, items, items, ih]

/-- Actions are checked. -/
theorem reports_actions (v : Json) : Reports (fun as => DescribesActions (some v) as)
    (fun p => (∀ items, v ≠ .array items) ∧ p = ⟨[], .notList⟩ ∨
      ∃ (items : List Json) (i : Nat) (x : Json) (q : Problem),
        v = .array items ∧ items[i]? = some x ∧ x.ActionDefect q ∧ p = q.under (.index i))
    (actions (.ofJson v)) := by
  cases v with
  | array items =>
    rw [Datum.ofJson, actions, ofItems_eq_map, items_map]
    have hitems : Reports (List.Forall₂ DescribesAction items) _ _ :=
      Reports.items (fun x _ => reports_action x) 0
    refine hitems.congr (fun as => ?_) fun p => ?_
    · exact ⟨fun h => by cases h; assumption, .array⟩
    · constructor
      · rintro (⟨hno, -⟩ | ⟨items', i, x, q, hitems', hx, hq, rfl⟩)
        · exact absurd rfl (hno items)
        · cases hitems'
          exact ⟨i, x, q, hx, hq, by rw [Nat.zero_add]⟩
      · rintro ⟨i, x, q, hx, hq, rfl⟩
        exact .inr ⟨items, i, x, q, rfl, hx, hq, by rw [Nat.zero_add]⟩
  | null | bool | int | float | text | object =>
    refine .refuse (fun as has => nomatch has) fun p => ?_
    constructor
    · rintro (⟨-, hp⟩ | ⟨items, i, x, q, hitems, -⟩)
      · exact hp
      · cases hitems
    · exact fun hp => .inl ⟨nofun, hp⟩

/-- The field with the label is checked. -/
theorem reports_labelField (name : Text) (fields : List (Text × Json)) :
    Reports (DescribesLabel ((lookup name fields).map fun v => (name, v)))
      (fun p => ∃ name' v, (lookup name fields).map (fun v => (name, v)) = some (name', v) ∧
        (∀ t, v ≠ .text t) ∧ p = ⟨[.field name'], .notText⟩)
      (optional name text Workflow.standardLabel (Datum.ofFields fields)) := by
  refine (Reports.optional reports_text name _ fields).congr (fun l => ?_) fun p => ?_
  · cases lookup name fields with
    | none => exact ⟨fun h => by cases h; exact .inl ⟨rfl, rfl⟩, fun h => by
        rcases h with ⟨-, rfl⟩ | ⟨v, hv, -⟩
        · exact .missing
        · cases hv⟩
    | some x => exact ⟨fun h => by cases h; exact .inr ⟨_, rfl, rfl⟩, fun h => by
        rcases h with ⟨hv, -⟩ | ⟨v, hv, rfl⟩
        · cases hv
        · cases hv
          exact .text name l⟩
  · constructor
    · rintro ⟨name', v, hv, hno, rfl⟩
      obtain ⟨x, hx, heq⟩ := Option.map_eq_some_iff.mp hv
      cases heq
      exact ⟨_, ⟨v, hx, hno, rfl⟩, rfl⟩
    · rintro ⟨q, ⟨v, hv, hno, rfl⟩, rfl⟩
      exact ⟨name, v, by rw [hv]; rfl, hno, rfl⟩

/-- The label is checked, under its stored name or else under its plain name. -/
theorem reports_label (fields : List (Text × Json)) :
    Reports (DescribesLabel (labelField? fields))
      (fun p => ∃ name v, labelField? fields = some (name, v) ∧ (∀ t, v ≠ .text t) ∧
        p = ⟨[.field name], .notText⟩) (label (Datum.ofFields fields)) := by
  have hstored := reports_labelField "buttonLabel" fields
  have hplain := reports_labelField "button_label" fields
  unfold label labelField?
  rw [Datum.entry?_ofFields]
  cases hlookup : lookup "buttonLabel" fields with
  | some x =>
    rw [hlookup] at hstored
    exact hstored
  | none => exact hplain

/-- The field with the label stands in front of the actions. -/
theorem rank_of_labelField? {fields : List (Text × Json)} {name : Text} {v : Json}
    (h : labelField? fields = some (name, v)) :
    (Place.field name).rank < (Place.field "actions").rank := by
  unfold labelField? at h
  split at h
  · cases h
    decide
  · obtain ⟨x, -, hx⟩ := Option.map_eq_some_iff.mp h
    cases hx
    decide

/-- Actions are described by nothing, or by the value of their field. -/
theorem describesActions_iff (field : Option Json) (as : List Action) :
    DescribesActions field as ↔
      field = none ∧ as = [] ∨ ∃ v, field = some v ∧ DescribesActions (some v) as := by
  constructor
  · intro h
    cases field with
    | none =>
      cases h
      exact .inl ⟨rfl, rfl⟩
    | some v => exact .inr ⟨v, rfl, h⟩
  · rintro (⟨rfl, rfl⟩ | ⟨v, rfl, h⟩)
    · exact .missing
    · exact h

/-- An object describes a workflow by its label and its actions. -/
theorem describesWorkflow_object_iff (fields : List (Text × Json)) (w : Workflow) :
    DescribesWorkflow (.object fields) w ↔ DescribesLabel (labelField? fields) w.label ∧
      DescribesActions (lookup "actions" fields) w.actions :=
  ⟨fun ⟨hlabel, hactions⟩ => ⟨hlabel, hactions⟩, fun h => .fields h.1 h.2⟩

/-- The label and the actions are checked. -/
theorem reports_workflow (fields : List (Text × Json)) :
    Reports (fun z => DescribesWorkflow (.object fields) ⟨z.1, z.2⟩) (WorkflowDefect fields)
      (both (label (Datum.ofFields fields))
        (optional "actions" actions [] (Datum.ofFields fields))) := by
  have hactions := Reports.optional reports_actions "actions" [] fields
  have hboth := (reports_label fields).both hactions fun p q hp hq => by
    obtain ⟨name, v, hname, -, rfl⟩ := hp
    obtain ⟨q', -, rfl⟩ := hq
    exact Problem.before_of_rank (rank_of_labelField? hname) ⟨[], .notText⟩ q'
  refine hboth.congr (fun z => ?_) fun p => ?_
  · rw [describesWorkflow_object_iff, describesActions_iff]
  · constructor
    · intro hp
      cases hp with
      | label hname hno => exact .inl ⟨_, _, hname, hno, rfl⟩
      | actions hv hno => exact .inr ⟨⟨[], .notList⟩, ⟨_, hv, .inl ⟨hno, rfl⟩⟩, rfl⟩
      | action hitems hx hq => exact .inr ⟨_, ⟨_, hitems, .inr ⟨_, _, _, _, rfl, hx, hq, rfl⟩⟩, rfl⟩
    · rintro (⟨name, v, hname, hno, rfl⟩ | ⟨q, ⟨v, hv, hq⟩, rfl⟩)
      · exact .label hname hno
      · rcases hq with ⟨hno, rfl⟩ | ⟨items, i, x, q, rfl, hx, hq, rfl⟩
        · exact .actions hv hno
        · exact .action hv hx hq

end Checked

/-! ## Workflows -/

/-- A JSON value is accepted when it describes a workflow, which is the result. -/
theorem Workflow.ofJson_eq_ok_iff (v : Json) (w : Workflow) :
    ofJson v = .ok w ↔ v.DescribesWorkflow w := by
  cases v with
  | object fields =>
    rw [← (Checked.reports_workflow fields).eq_ok_iff (w.label, w.actions), ofJson, Datum.ofJson,
      ofDatum]
    split
    · next l as hboth =>
      rw [hboth]
      obtain ⟨label, actions⟩ := w
      simp
    · next ps hboth =>
      rw [hboth]
      constructor <;> intro h <;> cases h
  | null | bool | int | float | text | array => constructor <;> intro h <;> cases h

/-- **The format is accepted, and every defect is reported once.** A JSON value is accepted exactly
when it describes a workflow, which is the result. An object that describes none is refused with its
defects: each of them once, in the order of the document, and on a line of its own. What is no
object is refused as such. -/
theorem Workflow.reports_every_defect (v : Json) :
    (∀ w, ofJson v = .ok w ↔ v.DescribesWorkflow w) ∧
    (∀ fields, v = .object fields → (¬ ∃ w, v.DescribesWorkflow w) →
      ∃ ps, ofJson v = .error (.problems ps) ∧ ps ≠ [] ∧ ps.Pairwise Problem.Before ∧
        (∀ p, p ∈ ps ↔ Json.WorkflowDefect fields p) ∧
        ∀ source, (Rejection.problems ps).message source =
          Text.join "\n" (("Invalid workflow " ++ source ++ ":") :: ps.map fun p =>
            "  - " ++ (Text.join "." (p.place.map Place.shown) ++ ": " ++ p.complaint.message))) ∧
    ((∀ fields, v ≠ .object fields) → ofJson v = .error .notMapping) := by
  cases v with
  | object fields =>
    have hreports := Checked.reports_workflow fields
    rw [ofJson, Datum.ofJson, ofDatum]
    generalize Checked.both (Checked.label (Datum.ofFields fields)) _ = c at hreports
    refine ⟨fun w => ?_, fun fields' hfields hnone => ?_, fun hno => absurd rfl (hno fields)⟩
    · cases hreports with
      | @passes z hz _ =>
        constructor
        · rintro ⟨⟩
          exact (hz z).mpr rfl
        · intro hw
          rw [← (hz (w.label, w.actions)).mp hw]
      | fails hno _ _ _ =>
        constructor
        · intro h
          cases h
        · exact fun hw => absurd hw (hno (w.label, w.actions))
    · cases hfields
      cases hreports with
      | @passes z hz _ => exact absurd ⟨_, (hz z).mpr rfl⟩ hnone
      | @fails ps _ hne hordered hall => exact ⟨ps, rfl, hne, hordered, hall, fun _ => rfl⟩
  | null | bool | int | float | text | array =>
    refine ⟨fun w => ⟨fun h => ?_, fun hw => ?_⟩, fun fields h => ?_, fun _ => rfl⟩
    · cases h
    · cases hw
    · cases h

/-- An object with a number as label and two elements that describe no action: its defects are
listed from the label to the type of the second action, although the label comes last. -/
theorem Workflow.reports_four_defects :
    let fields : List (Text × Json) :=
      [("actions", .array [.int 1, .object [("type", .text "nap"), ("params", .null)]]),
        ("buttonLabel", .int 5)]
    (¬ ∃ w, (Json.object fields).DescribesWorkflow w) ∧
      ∃ ps, ofJson (.object fields) = .error (.problems ps) ∧
        (∀ p, p ∈ ps ↔ Json.WorkflowDefect fields p) ∧
        ps.map (fun p => p.place.map Place.shown) =
          ([["buttonLabel"], ["actions", "0"], ["actions", "1", "id"],
            ["actions", "1", "type"]] : List (List Text)) := by
  intro fields
  have hnone : ¬ ∃ w, (Json.object fields).DescribesWorkflow w := by
    rintro ⟨w, hw⟩
    cases hw with
    | fields hlabel _ =>
      have hfield : Json.labelField? fields = some (("buttonLabel" : Text), .int 5) := rfl
      rw [hfield] at hlabel
      cases hlabel
  obtain ⟨-, hrefused, -⟩ := Workflow.reports_every_defect (.object fields)
  obtain ⟨ps, hps, -, -, hall, -⟩ := hrefused fields rfl hnone
  refine ⟨hnone, ps, hps, hall, ?_⟩
  have hlisted : ofJson (.object fields) = .error (.problems
      [⟨[.field "buttonLabel"], .notText⟩, ⟨[.field "actions", .index 0], .notAction⟩,
        ⟨[.field "actions", .index 1, .field "id"], .missing⟩,
        ⟨[.field "actions", .index 1, .field "type"], .notKind⟩]) := rfl
  cases hps.symm.trans hlisted
  decide

/-- Not every integer is accepted as the id of an action: one with 4301 digits is not. -/
theorem Workflow.not_every_integer_is_id :
    ¬ ∀ n : Int, ∃ w, ofJson (.object [("actions", .array
      [.object [("id", .int n), ("type", .text "closeWindow")]])]) = .ok w := by
  intro hall
  obtain ⟨w, hw⟩ := hall (10 ^ 4300)
  have hrefused : (ofJson (.object [("actions", .array
      [.object [("id", .int (10 ^ 4300)), ("type", .text "closeWindow")]])])).isOk = false := by
    decide +kernel
  rw [hw] at hrefused
  cases hrefused

end PushButton
