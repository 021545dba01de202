import Mathlib.Data.Set.List
import PushButton.Proofs.Run.Parameters
import PushButton.Proofs.Run.Telling
import PushButton.Proofs.Text.Quoted

/-!
# Descriptions of actions

An action is described by its kind and the values of the parameters that are not empty, each in
quotes. The names of the kinds are told apart, a value ends where its quote is closed, and a comma
or the closing parenthesis follows. So the description tells exactly what the kind reads, and so does
the line of the log about the step that takes the action up. It is one line, whatever the values are.
-/

namespace PushButton

/-! ## Parts that are joined -/

/-- Joined texts are the first one, and the others with a separator in front of each. -/
theorem Text.join_cons_eq (sep t : Text) (ts : List Text) :
    join sep (t :: ts) = t ++ ts.flatMap (sep ++ ·) := by
  induction ts generalizing t with
  | nil => simp [join]
  | cons u ts ih =>
    have hjoin : join sep (t :: u :: ts) = t ++ (sep ++ join sep (u :: ts)) := by simp [join]
    rw [hjoin, ih, List.flatMap_cons, List.append_assoc]

namespace ActionKind

/-- No name of a kind is the beginning of another one. -/
theorem eq_of_name_isPrefix {k k' : ActionKind} (h : k.name <+: k'.name) : k = k' := by
  have hall : ∀ k ∈ all, ∀ k' ∈ all, k.name.isPrefixOf k'.name = true → k = k' := by
    decide +kernel
  exact hall k (mem_all k) k' (mem_all k') (List.isPrefixOf_iff_prefix.mpr h)

/-- The names of kinds are told apart, whatever is written behind them. -/
theorem isPrefixFree_name : Text.IsPrefixFree name := by
  intro k k' u v heq
  have hprefix : k.name <+: k'.name ++ v := heq ▸ List.prefix_append _ _
  have hkind : k = k' := by
    rcases List.prefix_or_prefix_of_prefix hprefix (List.prefix_append _ _) with h | h
    · exact eq_of_name_isPrefix h
    · exact (eq_of_name_isPrefix h).symm
  subst hkind
  exact ⟨rfl, List.append_cancel_left heq⟩

/-- The name of a kind is printable. -/
theorem isPrintable_name (k : ActionKind) : k.name.IsPrintable := by
  have hall : ∀ k ∈ all, k.name.IsPrintable := by decide +kernel
  exact hall k (mem_all k)

/-- The name of a parameter is printable, and there is no sign of equality in it. -/
theorem isPrintable_parameter {k : ActionKind} {name : Text} (hname : name ∈ k.parameters) :
    name.IsPrintable ∧ .char '=' ∉ name := by
  have hall : ∀ k ∈ all, ∀ name ∈ k.parameters, name.IsPrintable ∧ .char '=' ∉ name := by
    decide +kernel
  exact hall k (mem_all k) name hname

end ActionKind

namespace Action

/-! ## Parameters with their values -/

/-- A parameter with its value in quotes. -/
def part (p : Text × Text) : Text := p.1 ++ "=" ++ p.2.quoted

/-- A parameter in whose name there is no sign of equality. -/
abbrev Named := {p : Text × Text // .char '=' ∉ p.1}

/-- Parameters with values are told apart, whatever is written behind them: the name ends at the first
sign of equality. -/
theorem isPrefixFree_part : Text.IsPrefixFree fun p : Named => part p.1 := by
  have hshape (p : Text × Text) (u : Text) : part p ++ u = p.1 ++ .char '=' :: (p.2.quoted ++ u) := by
    have hequals : Text.ofString "=" = [.char '='] := by decide
    simp only [part, hequals, List.append_assoc, List.cons_append, List.nil_append]
  intro p q u v heq
  dsimp only at heq
  rw [hshape, hshape] at heq
  obtain ⟨hname, hrest⟩ := Text.append_cons_inj p.2 q.2 heq
  obtain ⟨hvalue, hbehind⟩ := Text.isPrefixFree_quoted _ _ _ _ hrest
  exact ⟨Subtype.ext (Prod.ext hname hvalue), hbehind⟩

/-- Further parameters, each behind a comma, are told apart up to the closing parenthesis. -/
theorem isDelimited_part :
    Text.IsDelimited (fun p : Named => Text.ofString ", " ++ part p.1) (.char ')') where
  apart p q u v heq := by
    simp only [List.append_assoc, List.append_cancel_left_eq] at heq
    exact isPrefixFree_part p q u v heq
  begins p := ⟨.char ',', _, rfl, by decide⟩

/-- The parts of a description between the parentheses are told apart from what is behind. -/
theorem join_part_inj {ps qs : List (Text × Text)} (hps : ps ≠ []) (hqs : qs ≠ [])
    (hnames : ∀ p ∈ ps, .char '=' ∉ p.1) (hnames' : ∀ p ∈ qs, .char '=' ∉ p.1) {u v : Text}
    (heq : Text.join ", " (ps.map part) ++ .char ')' :: u =
      Text.join ", " (qs.map part) ++ .char ')' :: v) : ps = qs ∧ u = v := by
  lift ps to List Named using hnames
  lift qs to List Named using hnames'
  obtain ⟨p, ps, rfl⟩ := List.exists_cons_of_ne_nil (List.map_eq_nil_iff.not.mp hps)
  obtain ⟨q, qs, rfl⟩ := List.exists_cons_of_ne_nil (List.map_eq_nil_iff.not.mp hqs)
  simp only [List.map_cons, Text.join_cons_eq, List.append_assoc, List.flatMap_map] at heq
  obtain ⟨rfl, hrest⟩ := isPrefixFree_part p q _ _ heq
  obtain ⟨rfl, rfl⟩ := isDelimited_part.flatMap_append_cons_inj hrest
  exact ⟨rfl, rfl⟩

/-- A parameter is given when it is one that the kind reads and its value is not empty. -/
theorem mem_given_iff {a : Action} {name value : Text} : (name, value) ∈ a.given ↔
    name ∈ a.kind.parameters ∧ value = a.param name ∧ value ≠ [] := by
  unfold given
  simp only [List.mem_filter, List.mem_map, Bool.not_eq_true', List.isEmpty_eq_false_iff]
  constructor
  · rintro ⟨⟨name, hname, heq⟩, hvalue⟩
    cases heq
    exact ⟨hname, rfl, hvalue⟩
  · rintro ⟨hname, rfl, hvalue⟩
    exact ⟨⟨name, hname, rfl⟩, hvalue⟩

/-- In the name of a given parameter there is no sign of equality. -/
theorem notMem_name_of_mem_given {a : Action} : ∀ p ∈ a.given, .char '=' ∉ p.1 :=
  fun _ hp => (ActionKind.isPrintable_parameter (mem_given_iff.mp hp).1).2

/-- What is given tells the value of every parameter that is read. -/
theorem param_eq_of_given_eq {a b : Action} (hkind : a.kind = b.kind) (hgiven : a.given = b.given)
    {name : Text} (hname : name ∈ a.kind.parameters) : a.param name = b.param name := by
  by_cases hempty : a.param name = []
  · by_contra hne
    have hmem : (name, b.param name) ∈ b.given :=
      mem_given_iff.mpr ⟨hkind ▸ hname, rfl, fun h => hne (hempty.trans h.symm)⟩
    rw [← hgiven] at hmem
    exact hne (mem_given_iff.mp hmem).2.1.symm
  · have hmem : (name, a.param name) ∈ a.given := mem_given_iff.mpr ⟨hname, rfl, hempty⟩
    rw [hgiven] at hmem
    exact (mem_given_iff.mp hmem).2.1

/-! ## Descriptions -/

/-- The parameters of a description in parentheses. -/
def arguments (a : Action) : Text :=
  if a.given.isEmpty then [] else "(" ++ Text.join ", " (a.given.map part) ++ ")"

/-- A description is the name of the kind with the parameters behind it. -/
theorem describe_eq (a : Action) : a.describe = a.kind.name ++ a.arguments := by
  unfold describe arguments
  split
  · exact (List.append_nil _).symm
  · rw [List.append_assoc, List.append_assoc, List.append_assoc]
    rfl

/-- Parameters in parentheses are told apart up to a space. -/
theorem arguments_append_cons_inj {a b : Action} {u v : Text}
    (heq : a.arguments ++ .char ' ' :: u = b.arguments ++ .char ' ' :: v) :
    a.given = b.given ∧ u = v := by
  have hshape (a : Action) (u : Text) (h : ¬ a.given.isEmpty = true) :
      a.arguments ++ .char ' ' :: u = .char '(' ::
        (Text.join ", " (a.given.map part) ++ .char ')' :: .char ' ' :: u) := by
    have hopen : Text.ofString "(" = [.char '('] := by decide
    have hclose : Text.ofString ")" = [.char ')'] := by decide
    simp only [arguments, if_neg h, hopen, hclose, List.append_assoc, List.cons_append,
      List.nil_append]
  by_cases ha : a.given.isEmpty = true
  · by_cases hb : b.given.isEmpty = true
    · rw [arguments, arguments, if_pos ha, if_pos hb] at heq
      exact ⟨(List.isEmpty_iff.mp ha).trans (List.isEmpty_iff.mp hb).symm,
        (List.cons.inj heq).2⟩
    · rw [arguments, if_pos ha, hshape b v hb] at heq
      exact absurd (List.cons.inj heq).1 (by decide)
  · by_cases hb : b.given.isEmpty = true
    · rw [hshape a u ha, arguments, if_pos hb] at heq
      exact absurd (List.cons.inj heq).1 (by decide)
    · rw [hshape a u ha, hshape b v hb] at heq
      rw [List.isEmpty_iff] at ha hb
      obtain ⟨hgiven, hrest⟩ := join_part_inj ha hb notMem_name_of_mem_given
        notMem_name_of_mem_given (List.cons.inj heq).2
      exact ⟨hgiven, (List.cons.inj hrest).2⟩

/-- A description is told apart up to a space, and it tells what the kind reads. -/
theorem readsLike_of_describe_append {a b : Action} {u v : Text}
    (heq : a.describe ++ .char ' ' :: u = b.describe ++ .char ' ' :: v) :
    a.ReadsLike b ∧ u = v := by
  rw [describe_eq, describe_eq, List.append_assoc, List.append_assoc] at heq
  obtain ⟨hkind, harguments⟩ := ActionKind.isPrefixFree_name _ _ _ _ heq
  obtain ⟨hgiven, hrest⟩ := arguments_append_cons_inj harguments
  exact ⟨⟨hkind, fun name hname => param_eq_of_given_eq hkind hgiven hname⟩, hrest⟩

/-- Actions that read the same are described alike. -/
theorem ReadsLike.describe_eq {a b : Action} (h : a.ReadsLike b) : a.describe = b.describe := by
  have hgiven : a.given = b.given := by
    unfold given
    rw [← h.kind]
    refine congrArg _ (List.map_congr_left fun name hname => ?_)
    rw [h.param name hname]
  unfold describe
  rw [hgiven, h.kind]

/-- Actions are described alike exactly when they read the same. -/
theorem describe_eq_iff {a b : Action} : a.describe = b.describe ↔ a.ReadsLike b := by
  constructor
  · intro heq
    exact (readsLike_of_describe_append (u := []) (v := []) (by rw [heq])).1
  · exact ReadsLike.describe_eq

/-- A description is printable, whatever the values of the parameters are. -/
theorem isPrintable_describe (a : Action) : a.describe.IsPrintable := by
  have hsigns : ∀ t ∈ (["=", ", ", "(", ")"] : List String), (Text.ofString t).IsPrintable := by
    decide +kernel
  have hpart : ∀ p ∈ a.given, (part p).IsPrintable := by
    rintro ⟨name, value⟩ hp
    obtain ⟨hname, -⟩ := mem_given_iff.mp hp
    simp only [part, Text.isPrintable_append, Text.isPrintable_quoted, and_true]
    exact ⟨(ActionKind.isPrintable_parameter hname).1, hsigns _ (by decide)⟩
  rw [describe_eq, Text.isPrintable_append]
  refine ⟨a.kind.isPrintable_name, ?_⟩
  unfold arguments
  split
  · exact Text.isPrintable_nil
  · cases hgiven : a.given with
    | nil => next h => exact absurd (List.isEmpty_iff.mpr hgiven) h
    | cons p ps =>
      rw [hgiven] at hpart
      rw [List.map_cons, Text.join_cons_eq]
      simp only [Text.isPrintable_append, hsigns "(" (by decide), hsigns ")" (by decide),
        hpart p List.mem_cons_self, true_and, and_true, List.flatMap_map]
      refine Text.isPrintable_flatMap fun q hq => ?_
      exact Text.isPrintable_append.mpr
        ⟨hsigns ", " (by decide), hpart q (List.mem_cons_of_mem _ hq)⟩

end Action

/-! ## Lines about steps -/

/-- The code points that end a line. -/
def Symbol.lineBreaks : List Symbol :=
  [0x0A, 0x0B, 0x0C, 0x0D, 0x1C, 0x1D, 0x1E, 0x85, 0x2028, 0x2029].map Symbol.ofCode

/-- Nothing that ends a line is printable. -/
theorem Symbol.notMem_lineBreaks {s : Symbol} (hs : s.isPrintable = true) :
    s ∉ Symbol.lineBreaks := by
  have hall : ∀ s ∈ Symbol.lineBreaks, s.isPrintable = false := by decide +kernel
  intro hmem
  cases hs.symm.trans (hall s hmem)

namespace Run

variable {id : Text} {total i : Nat} {a : Action}

/-- The shown keys of the context of a step, with their values. -/
def stepKeys (id : Text) (i : Nat) (a : Action) : List Text :=
  ["run_id=" ++ id, "step_index=" ++ Text.ofNat (i + 1), "action=" ++ a.kind.name]

/-- The line about a step is the message, and behind it the keys of its context. -/
theorem console_stepRecord (id : Text) (total i : Nat) (a : Action) :
    (stepRecord id total i a).console = (stepRecord id total i a).message ++ "  (" ++
      Text.join " " (stepKeys id i a) ++ ")" := by
  have hkeys : Record.shownKeys.filterMap (fun key =>
      (Json.lookup key (stepRecord id total i a).context).map fun v =>
        key ++ "=" ++ (Datum.ofJson v).shown) = stepKeys id i a := by
    have hindex : (Datum.ofJson (.int (i + 1))).shown = Text.ofNat (i + 1) := rfl
    have hid : (Datum.ofJson (.text id)).shown = id := rfl
    have hkind : (Datum.ofJson (.text a.kind.name)).shown = a.kind.name := rfl
    have h₁ : Json.lookup "run_id" (stepRecord id total i a).context = some (.text id) := rfl
    have h₂ : Json.lookup "step_index" (stepRecord id total i a).context =
      some (.int (i + 1)) := rfl
    have h₃ : Json.lookup "action" (stepRecord id total i a).context =
      some (.text a.kind.name) := rfl
    simp only [Record.shownKeys, List.filterMap_cons, List.filterMap_nil, h₁, h₂, h₃,
      Option.map_some, hindex, hid, hkind]
    rfl
  unfold Record.console
  rw [hkeys]
  rfl

/-- The message about a step, up to a symbol that is no part of it. -/
theorem message_stepRecord_append (id : Text) (total i : Nat) (a : Action) (u : Text) :
    (stepRecord id total i a).message ++ u = "Step " ++ (Text.ofNat (i + 1) ++ .char '/' ::
      (Text.ofNat total ++ .char ':' :: .char ' ' :: (a.describe ++ u))) := by
  have hslash : Text.ofString "/" = [.char '/'] := by decide
  have hcolon : Text.ofString ": " = [.char ':', .char ' '] := by decide
  have hmessage : (stepRecord id total i a).message =
    "Step " ++ Text.ofNat (i + 1) ++ "/" ++ Text.ofNat total ++ ": " ++ a.describe := rfl
  rw [hmessage, hslash, hcolon]
  simp only [List.append_assoc, List.cons_append, List.nil_append]

/-- The message about a step is told apart up to a space: it tells the number of the step, the number
of all steps, and what the action reads. -/
theorem message_stepRecord_inj {id' : Text} {total' i' : Nat} {b : Action} {u v : Text}
    (heq : (stepRecord id total i a).message ++ .char ' ' :: u =
      (stepRecord id' total' i' b).message ++ .char ' ' :: v) :
    i = i' ∧ total = total' ∧ a.ReadsLike b ∧ u = v := by
  rw [message_stepRecord_append, message_stepRecord_append, List.append_cancel_left_eq] at heq
  obtain ⟨hindex, hrest⟩ := Text.append_cons_inj (Text.notMem_ofNat (by decide))
    (Text.notMem_ofNat (by decide)) heq
  obtain ⟨htotal, hrest⟩ := Text.append_cons_inj (Text.notMem_ofNat (by decide))
    (Text.notMem_ofNat (by decide)) hrest
  obtain ⟨hlike, hbehind⟩ := Action.readsLike_of_describe_append
    (List.cons.inj hrest).2
  exact ⟨Nat.succ.inj (Text.ofNat_injective hindex), Text.ofNat_injective htotal, hlike, hbehind⟩

/-- The message about a step is printable. -/
theorem isPrintable_message_stepRecord (id : Text) (total i : Nat) (a : Action) :
    (stepRecord id total i a).message.IsPrintable := by
  have hwords : ∀ t ∈ (["Step ", "/", ": "] : List String), (Text.ofString t).IsPrintable := by
    decide +kernel
  have hmessage : (stepRecord id total i a).message =
    "Step " ++ Text.ofNat (i + 1) ++ "/" ++ Text.ofNat total ++ ": " ++ a.describe := rfl
  rw [hmessage]
  simp only [Text.isPrintable_append, hwords "Step " (by decide), hwords "/" (by decide),
    hwords ": " (by decide), Text.isPrintable_ofNat, a.isPrintable_describe, and_self]

/-- The line about a step is printable when the id of the run is. -/
theorem isPrintable_console_stepRecord (hid : id.IsPrintable) (total i : Nat) (a : Action) :
    (stepRecord id total i a).console.IsPrintable := by
  have hwords : ∀ t ∈ (["  (", " ", "run_id=", "step_index=", "action=", ")"] : List String),
      (Text.ofString t).IsPrintable := by
    decide +kernel
  rw [console_stepRecord, stepKeys, Text.join_cons_eq]
  simp only [Text.isPrintable_append, List.flatMap_cons, List.flatMap_nil, Text.isPrintable_nil,
    isPrintable_message_stepRecord, hid, Text.isPrintable_ofNat, a.kind.isPrintable_name,
    hwords "  (" (by decide), hwords " " (by decide), hwords "run_id=" (by decide),
    hwords "step_index=" (by decide), hwords "action=" (by decide), hwords ")" (by decide),
    and_self]

/-- Equal lines about steps tell the same step of actions that read the same. -/
theorem console_stepRecord_inj {id' : Text} {total' i' : Nat} {b : Action}
    (heq : (stepRecord id total i a).console = (stepRecord id' total' i' b).console) :
    i = i' ∧ total = total' ∧ a.ReadsLike b := by
  have hspace : Text.ofString "  (" = .char ' ' :: Text.ofString " (" := by decide
  simp only [console_stepRecord, hspace, List.append_assoc, List.cons_append] at heq
  obtain ⟨hindex, htotal, hlike, -⟩ := message_stepRecord_inj heq
  exact ⟨hindex, htotal, hlike⟩

end Run

namespace Action

/-- **A description identifies what an action does.** Two actions are described alike exactly when
they are of one kind and carry the same values for the parameters that it reads; and a description
is printable, so that nothing in it ends a line. The record that a run makes when it takes an action
up gives a printable line too, and such lines are equal only for the same step of actions that are
begun alike with every host. -/
theorem describe_identifies (a b : Action) :
    (a.describe = b.describe ↔
      a.kind = b.kind ∧ ∀ name ∈ a.kind.parameters, a.param name = b.param name) ∧
    (∀ s ∈ a.describe, s.isPrintable = true ∧ s ∉ Symbol.lineBreaks) ∧
    (∀ (σ : Type) (r : Run) (w : World σ), ((r.announce a).exec w).2.past =
      .logged (Run.stepRecord r.id r.total r.index a) :: w.past) ∧
    (∀ (id : Text) (total i : Nat),
      (∀ s ∈ (Run.stepRecord id total i a).message, s.isPrintable = true ∧ s ∉ Symbol.lineBreaks) ∧
      (id.IsPrintable → ∀ s ∈ (Run.stepRecord id total i a).console,
        s.isPrintable = true ∧ s ∉ Symbol.lineBreaks) ∧
      ∀ (id' : Text) (total' i' : Nat),
        (Run.stepRecord id total i a).message = (Run.stepRecord id' total' i' b).message ∨
          (Run.stepRecord id total i a).console = (Run.stepRecord id' total' i' b).console →
        i = i' ∧ total = total' ∧ a.kind = b.kind ∧
          (∀ name ∈ a.kind.parameters, a.param name = b.param name) ∧
          ∀ (σ : Type) (h : Host σ) (mayWait : Bool), a.launch h mayWait = b.launch h mayWait) := by
  have hline {t : Text} (ht : t.IsPrintable) :
      ∀ s ∈ t, s.isPrintable = true ∧ s ∉ Symbol.lineBreaks :=
    fun s hs => ⟨ht s hs, Symbol.notMem_lineBreaks (ht s hs)⟩
  refine ⟨?_, hline a.isPrintable_describe, fun _ _ _ => rfl, fun id total i => ⟨?_, ?_, ?_⟩⟩
  · rw [describe_eq_iff]
    exact ⟨fun hlike => ⟨hlike.kind, hlike.param⟩, fun ⟨hkind, hparam⟩ => ⟨hkind, hparam⟩⟩
  · exact hline (Run.isPrintable_message_stepRecord id total i a)
  · exact fun hid => hline (Run.isPrintable_console_stepRecord hid total i a)
  · intro id' total' i' heq
    have htold : i = i' ∧ total = total' ∧ a.ReadsLike b := by
      rcases heq with hmessage | hconsole
      · obtain ⟨hindex, htotal, hlike, -⟩ :=
          Run.message_stepRecord_inj (congrArg (· ++ [.char ' ']) hmessage)
        exact ⟨hindex, htotal, hlike⟩
      · exact Run.console_stepRecord_inj hconsole
    obtain ⟨hindex, htotal, hlike⟩ := htold
    exact ⟨hindex, htotal, hlike.kind, hlike.param, fun _ _ mayWait => hlike.launch_eq mayWait⟩

end Action

end PushButton
