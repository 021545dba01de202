import Mathlib.Data.List.Forall2
import PushButton.Proofs.Run.Replay
import PushButton.Proofs.Run.Times
import PushButton.Workflow.Editing

/-!
# Only the parameters that a kind reads matter

Two actions of one kind do the same when they carry the same values for the parameters that the kind
reads: ids, other parameters, and whether a parameter is missing or empty make no difference. So two
workflows of such actions run alike, but for the label and the ids in records; and a workflow runs
like the one in which every action keeps only what it would keep if it were made anew.
-/

namespace PushButton

variable {σ : Type}

namespace Action

/-! ## Actions that read the same -/

/-- Two actions are of one kind and carry the same values for the parameters that it reads. -/
structure ReadsLike (a a' : Action) : Prop where
  /-- The kind is the same. -/
  kind : a.kind = a'.kind
  /-- Every parameter that is read has the same value. -/
  param : ∀ name ∈ a.kind.parameters, a.param name = a'.param name

namespace ReadsLike

variable {a a' : Action} {h : Host σ}

/-- A parameter that the kind reads has the same value. -/
theorem param_eq (hlike : a.ReadsLike a') {k : ActionKind} (hkind : a.kind = k) {name : Text}
    (hname : name ∈ k.parameters) : a.param name = a'.param name :=
  hlike.param name (hkind ▸ hname)

/-- The actions make the same request. -/
theorem request?_eq (hlike : a.ReadsLike a') : a.request? = a'.request? := by
  unfold request?
  rw [← hlike.kind]
  cases hkind : a.kind with
  | alert | promptAndShow =>
    have hmessage : a.param "message" = a'.param "message" := hlike.param_eq hkind (by decide)
    dsimp only
    rw [hmessage]
  | _ => rfl

/-- The actions do the same where they make no request. -/
theorem perform_eq (hlike : a.ReadsLike a') : (perform a : Act σ Unit) = perform a' := by
  unfold perform
  rw [← hlike.kind]
  cases hkind : a.kind with
  | showText =>
    have htext : a.param "text" = a'.param "text" := hlike.param_eq hkind (by decide)
    dsimp only
    rw [htext]
  | showImage =>
    have hurl : a.param "url" = a'.param "url" := hlike.param_eq hkind (by decide)
    dsimp only
    rw [hurl]
  | setLocalStorage =>
    have hkey : a.param "key" = a'.param "key" := hlike.param_eq hkind (by decide)
    have hvalue : a.param "value" = a'.param "value" := hlike.param_eq hkind (by decide)
    dsimp only
    rw [hkey, hvalue]
  | getLocalStorage =>
    have hkey : a.param "key" = a'.param "key" := hlike.param_eq hkind (by decide)
    dsimp only
    rw [hkey]
  | changeButtonColor =>
    have hcolor : a.param "color" = a'.param "color" := hlike.param_eq hkind (by decide)
    dsimp only
    rw [hcolor]
  | _ => rfl

/-- A reply means the same to both actions. -/
theorem conclude_eq (hlike : a.ReadsLike a') (reply : Reply) :
    (conclude a reply : Act σ Effect) = conclude a' reply := by
  unfold conclude
  rw [hlike.kind]

/-- The record about how long it took is the same. -/
theorem timed_eq {α : Type} (hlike : a.ReadsLike a') (since : Nat) (act : Act σ α) :
    a.timed since act = a'.timed since act := by
  unfold timed
  rw [hlike.kind]

/-- The actions settle a request alike. -/
theorem settle_eq (hlike : a.ReadsLike a') (r : Request) (since : Nat) :
    a.settle h r since = a'.settle h r since := by
  unfold settle
  rw [hlike.timed_eq]
  simp only [hlike.conclude_eq]

/-- Behind the record about it, both actions are begun alike. -/
theorem launch_eq (hlike : a.ReadsLike a') (mayWait : Bool) :
    a.launch h mayWait = a'.launch h mayWait := by
  unfold launch
  simp only [hlike.request?_eq, hlike.perform_eq, hlike.conclude_eq, hlike.timed_eq,
    hlike.settle_eq]

end ReadsLike

end Action

/-! ## Worlds that differ in records only -/

/-- Two worlds differ in nothing but the records of the log, and no observer looks at these. -/
structure World.AlikeButRecords (w w' : World σ) : Prop where
  /-- Everything but what has happened is the same. -/
  rest : { w with past := w'.past } = w'
  /-- The same has happened, records apart. -/
  past : w.past.filter (·.record?.isNone) = w'.past.filter (·.record?.isNone)
  /-- No observer looks at records. -/
  blind : w.IsBlind

namespace World.AlikeButRecords

variable {w w' : World σ}

/-- A world is like itself. -/
theorem refl (h : w.IsBlind) : w.AlikeButRecords w := ⟨rfl, rfl, h⟩

/-- What has nothing to do with what has happened is the same. -/
theorem same {γ : Type} (h : w.AlikeButRecords w') (f : World σ → γ)
    (hf : ∀ (u : World σ) past, f { u with past := past } = f u) : f w = f w' := by
  rw [← h.rest]
  exact (hf w w'.past).symm

/-- Worlds stay alike when each makes a record of its own. -/
theorem after_records (h : w.AlikeButRecords w') (r r' : Record) :
    (w.after [.logged r]).AlikeButRecords (w'.after [.logged r']) where
  rest := congrArg (·.after [.logged r']) h.rest
  past := h.past
  blind := h.blind

/-- Worlds stay alike when the same change is made that has nothing to do with what has happened and
with observers. -/
theorem map (h : w.AlikeButRecords w') (f : World σ → World σ)
    (hpast : ∀ (u : World σ) past, f { u with past := past } = { f u with past := past })
    (hlisteners : ∀ u : World σ, (f u).listeners = u.listeners) :
    (f w).AlikeButRecords (f w') := by
  have hsame (u : World σ) : (f u).past = u.past := by
    have hself : f u = { f u with past := u.past } := hpast u u.past
    rw [hself]
  refine ⟨?_, ?_, fun l hl => h.blind l (hlisteners w ▸ hl)⟩
  · rw [hsame, ← hpast, h.rest]
  · rw [hsame, hsame, h.past]

end World.AlikeButRecords

/-- Worlds that differ in records are like each other for all that actions look at. -/
instance : World.Likeness (World.AlikeButRecords (σ := σ)) where
  surface hw := hw.same World.surface fun _ _ => rfl
  listeners hw := hw.same World.listeners fun _ _ => rfl
  shelf hw := hw.same World.shelf fun _ _ => rfl
  draws hw := hw.same World.draws fun _ _ => rfl
  blind hw l hl field u u' hu := by
    have hsurface : u.surface = u'.surface := hu.same World.surface fun _ _ => rfl
    rw [hw.blind l hl field u.surface, hw.blind l hl field u'.surface, hsurface, hu.past]
  after os hw := by
    refine ⟨congrArg (·.after os) hw.rest, ?_, hw.blind⟩
    change (os.reverse ++ _).filter _ = (os.reverse ++ _).filter _
    rw [List.filter_append, List.filter_append, hw.past]
  with_surface s hw := hw.map (fun u => { u with surface := s }) (fun _ _ => rfl) fun _ => rfl
  with_listeners {_ _ ls} hls hw :=
    ⟨congrArg (fun u : World σ => { u with listeners := ls }) hw.rest, hw.past,
      fun l hl => hw.blind l (hls.subset hl)⟩
  with_shelf s hw := hw.map (fun u => { u with shelf := s }) (fun _ _ => rfl) fun _ => rfl
  with_draws ns hw := hw.map (fun u => { u with draws := ns }) (fun _ _ => rfl) fun _ => rfl
  took _ _ _ _ hw := hw.after_records _ _

instance (h : Host σ) : h.Heeds World.AlikeButRecords :=
  .of_same (fun hw => hw.same World.host fun _ _ => rfl) fun s hw =>
    hw.map (fun u => { u with host := s }) (fun _ _ => rfl) fun _ => rfl

/-- Actions that read the same are applied alike. -/
theorem Action.ReadsLike.agreesUpTo_apply (h : Host σ) {a a' : Action} (hlike : a.ReadsLike a') :
    Act.AgreesUpTo World.AlikeButRecords (a.apply h) (a'.apply h) := by
  have hstart : Act.AgreesUpTo World.AlikeButRecords (a.start h false) (a'.start h false) := by
    rw [start_eq_launch, start_eq_launch, hlike.launch_eq]
    refine Act.AgreesUpTo.bind (fun w w' hw => ⟨rfl, hw.after_records _ _⟩) fun _ => ?_
    exact agreesUpTo_launch h false a' nofun
  refine hstart.bind fun b => ?_
  cases b with
  | applied e => exact Act.AgreesUpTo.pure e
  | waiting r since =>
    have hsettle : Act.AgreesUpTo World.AlikeButRecords (a.settle h r since)
        (a'.settle h r since) := by
      rw [hlike.settle_eq]
      exact agreesUpTo_settle h a' r (.inl rfl)
    exact hsettle

/-! ## Runs of actions that read the same -/

/-- Two reports are the same, except for the id of the action. -/
inductive Progress.SameButId : Progress → Progress → Prop
  /-- The same report. -/
  | refl (p : Progress) : SameButId p p
  /-- Steps at one position with one effect. -/
  | stepped (index : Nat) (id id' : Text) (e : Effect) :
      SameButId (.stepped index id e) (.stepped index id' e)

/-- Two rows of reports with the worlds behind them are the same, except for ids and records. -/
def ReportsAlike : List (Progress × World σ) → List (Progress × World σ) → Prop :=
  List.Forall₂ fun p p' => p.1.SameButId p'.1 ∧ p.2.AlikeButRecords p'.2

/-- Two replays have the same steps, except for ids, the same result, and worlds that differ in
records. -/
structure Replay.AlikeButRecords (x y : Replay σ) : Prop where
  /-- The steps are the same, except for ids. -/
  steps : ReportsAlike x.steps y.steps
  /-- The result is the same. -/
  result : x.result = y.result
  /-- The worlds at the end differ in records. -/
  world : x.world.AlikeButRecords y.world

/-- The reports of replays that are alike. -/
theorem Replay.AlikeButRecords.reports {x y : Replay σ} (hlike : x.AlikeButRecords y) :
    ReportsAlike x.reports y.reports := by
  unfold Replay.reports
  rw [hlike.result]
  exact List.rel_append hlike.steps (.cons ⟨.refl _, hlike.world⟩ .nil)

namespace Run

variable {h : Host σ}

/-- Actions that read the same are taken up alike. -/
theorem agreesUpTo_announce_readsLike {r r' : Run} (hindex : r.index = r'.index) (a a' : Action) :
    Act.AgreesUpTo World.AlikeButRecords (r.announce a : Act σ Unit) (r'.announce a') := by
  intro w w' hw
  have hcurrent : World.AlikeButRecords
      { w with sequencer := { w.sequencer with current := some r.index } }
      { w' with sequencer := { w'.sequencer with current := some r'.index } } := by
    rw [hindex]
    exact hw.map (fun u => { u with sequencer := { u.sequencer with current := some r'.index } })
      (fun _ _ => rfl) fun _ => rfl
  exact ⟨rfl, hcurrent.after_records _ _⟩

/-- Actions that read the same are played alike. -/
theorem agreesUpTo_play_readsLike {r r' : Run} (hindex : r.index = r'.index) (ms : Nat)
    {a a' : Action} (hlike : a.ReadsLike a') :
    Act.AgreesUpTo World.AlikeButRecords (r.play h ms a) (r'.play h ms a') := by
  have hsleep : Act.AgreesUpTo World.AlikeButRecords (Act.sleep ms : Act σ Unit)
      (Act.sleep ms) := by
    unfold Act.sleep
    split
    · refine (Act.AgreesUpTo.modify fun w w' hw => ?_).bind fun _ => Act.agreesUpTo_occur _
      exact hw.map (fun u => { u with clock := u.clock + ms }) (fun _ _ => rfl) fun _ => rfl
    · exact Act.AgreesUpTo.pure _
  refine hsleep.bind fun _ => (agreesUpTo_announce_readsLike hindex a a').bind fun _ => ?_
  refine (hlike.agreesUpTo_apply h).bind fun e => ?_
  cases e with
  | proceed => exact Act.AgreesUpTo.pure _
  | reload =>
    have hremount : Act.AgreesUpTo World.AlikeButRecords (r.remount a : Act σ Unit)
        (r'.remount a') :=
      Act.AgreesUpTo.bind (fun w w' hw => ⟨rfl, hw.after_records _ _⟩) fun _ =>
        Act.agreesUpTo_remake
    exact hremount.bind fun _ => Act.AgreesUpTo.pure _

/-- Runs end alike. -/
theorem alikeButRecords_released {w w' : World σ} (hw : w.AlikeButRecords w') :
    w.released.AlikeButRecords w'.released :=
  hw.map World.released (fun _ _ => rfl) fun _ => rfl

/-- What comes of active runs at one position, with actions left that read the same. The induction
is on these actions. -/
theorem alikeButRecords_remainder (ms : Nat) {actions actions' : List Action}
    (hactions : List.Forall₂ Action.ReadsLike actions actions') {r r' : Run}
    (hindex : r.index = r'.index) {w w' : World σ} (hw : w.AlikeButRecords w') :
    (remainder h ms r actions w).AlikeButRecords (remainder h ms r' actions' w') := by
  induction hactions generalizing r r' w w' with
  | nil =>
    have hfinish : (r.finish.exec w).2.AlikeButRecords (r'.finish.exec w').2 := by
      obtain ⟨record, hfinish⟩ := r.exec_finish w
      obtain ⟨record', hfinish'⟩ := r'.exec_finish w'
      rw [hfinish, hfinish']
      exact hw.after_records record record'
    exact ⟨.nil, rfl, alikeButRecords_released hfinish⟩
  | @cons a a' rest rest' hlike _ ih =>
    obtain ⟨res, u, u', hu, hu', hworlds⟩ :=
      (agreesUpTo_play_readsLike (h := h) hindex ms hlike).exists_exec hw
    rw [remainder_cons, remainder_cons, hu, hu', hindex]
    cases res with
    | error f => exact ⟨.nil, rfl, alikeButRecords_released hworlds⟩
    | ok e =>
      cases e with
      | reload =>
        exact ⟨.cons ⟨.stepped _ _ _ _, hworlds⟩ .nil, rfl, alikeButRecords_released hworlds⟩
      | proceed =>
        have hnext : r.next.index = r'.next.index := congrArg (· + 1) hindex
        have hlater := ih hnext hworlds
        exact ⟨.cons ⟨.stepped _ _ _ _, hworlds⟩ hlater.steps, hlater.result, hlater.world⟩

/-- What comes of runs that begin, with actions that read the same. -/
theorem alikeButRecords_course (ms : Nat) {r r' : Run}
    (hactions : List.Forall₂ Action.ReadsLike r.remaining r'.remaining)
    (hindex : r.index = r'.index) {w : World σ} (hblind : w.IsBlind) :
    (r.course h ms w).AlikeButRecords (r'.course h ms w) := by
  have hnumbered : (r.numbered w).AlikeButRecords (r'.numbered w) := by
    unfold numbered
    refine World.AlikeButRecords.after_records ?_ _ _
    exact .refl hblind
  have hclear : Act.AgreesUpTo World.AlikeButRecords (Act.clear : Act σ Unit) Act.clear :=
    Act.agreesUpTo_clear
  obtain ⟨res, u, u', hu, hu', hworlds⟩ := hclear.exists_exec hnumbered
  unfold course
  rw [exec_begin, exec_begin, hu, hu']
  cases res with
  | error f => exact ⟨.nil, rfl, hworlds⟩
  | ok _ =>
    let begun : Run := { r with id := idOf (w.runIds + 1), since := w.clock }
    let begun' : Run := { r' with id := idOf (w.runIds + 1), since := w.clock }
    have hbegun : begun.index = begun'.index := hindex
    exact alikeButRecords_remainder ms hactions hbegun hworlds

/-- In one world, the complete runs of two workflows have the same result and leave worlds that
differ in records, and when they are left after every action they report the same, except for
ids. -/
structure SameRuns (h : Host σ) (w : World σ) (x x' : Workflow) : Prop where
  /-- The result is the same. -/
  result : ((complete h (some x)).exec w).1 = ((complete h (some x')).exec w).1
  /-- The worlds differ in records. -/
  world : ((complete h (some x)).exec w).2.AlikeButRecords ((complete h (some x')).exec w).2
  /-- The reports are the same, except for ids. -/
  reports : ReportsAlike (reportsOf h (some x) w) (reportsOf h (some x') w)

/-- Workflows with actions that read the same have the same runs. -/
theorem sameRuns_of_readsLike (h : Host σ) {x x' : Workflow}
    (hactions : List.Forall₂ Action.ReadsLike x.actions x'.actions) {w : World σ}
    (hblind : w.IsBlind) : SameRuns h w x x' := by
  have hsame : w.AlikeButRecords w := .refl hblind
  by_cases hnothing : x.actions = []
  · have hnothing' : x'.actions = [] := by
      rw [hnothing] at hactions
      exact List.forall₂_nil_left_iff.mp hactions
    have hidle : ∀ {y : Workflow}, y.actions = [] →
        reportsOf h (some y) w = [(.done, w.after [.logged idleRecord])] := by
      intro y hy
      unfold reportsOf
      rw [iterate, run_advance_idle rfl hy]
      rfl
    have hcomplete {y : Workflow} (hy : y.actions = []) :
        (complete h (some y)).exec w = (.ok (), w.after [.logged idleRecord]) := by
      have hremaining : (ofWorkflow (some y)).remaining = [] := hy
      exact complete_of_nothing h hremaining w
    refine ⟨?_, ?_, ?_⟩
    · rw [hcomplete hnothing, hcomplete hnothing']
    · rw [hcomplete hnothing, hcomplete hnothing']
      exact hsame.after_records _ _
    · rw [hidle hnothing, hidle hnothing']
      exact .cons ⟨.refl _, hsame.after_records _ _⟩ .nil
  · have hnothing' : x'.actions ≠ [] := by
      intro hempty
      rw [hempty] at hactions
      exact hnothing (List.forall₂_nil_right_iff.mp hactions)
    have hindex : (ofWorkflow (some x)).index = (ofWorkflow (some x')).index := rfl
    have hcourse : ((ofWorkflow (some x)).course h w.sequencer.pacing w).AlikeButRecords
        ((ofWorkflow (some x')).course h w.sequencer.pacing w) :=
      alikeButRecords_course w.sequencer.pacing hactions hindex hblind
    refine ⟨?_, ?_, ?_⟩
    · rw [complete_eq_course rfl hnothing, complete_eq_course rfl hnothing', hcourse.result]
    · rw [complete_eq_course rfl hnothing, complete_eq_course rfl hnothing']
      exact hcourse.world
    · have hreports {y : Workflow} (hy : y.actions ≠ []) : reportsOf h (some y) w =
          ((ofWorkflow (some y)).course h w.sequencer.pacing w).reports :=
        iterate_eq_course rfl rfl hy (Nat.le_refl _)
      rw [hreports hnothing, hreports hnothing']
      exact hcourse.reports

end Run

/-! ## What an action would keep -/

/-- The action with the parameters that it would keep if it were made anew. -/
def Action.reduced (a : Action) : Action :=
  make a.id a.kind ((a.params.getD []).map fun (name, value) => (name, .text value))

/-- The workflow with the parameters that its actions would keep if they were made anew. -/
def Workflow.reduced (x : Workflow) : Workflow := { x with actions := x.actions.map Action.reduced }

/-- A parameter that a kind reads is kept with its value. -/
theorem Action.lookup_keptParams {kind : ActionKind} {name : Text} (hname : name ∈ kind.parameters)
    (params : List (Text × Text)) :
    Json.lookup name (keptParams kind (params.map fun (n, v) => (n, .text v))) =
      Json.lookup name params := by
  induction params with
  | nil => rfl
  | cons p rest ih =>
    obtain ⟨n, v⟩ := p
    rw [List.map_cons]
    by_cases hread : kind.parameters.contains n = true
    · have hkept (given : List (Text × Json)) :
          keptParams kind ((n, .text v) :: given) = (n, v) :: keptParams kind given :=
        List.filterMap_cons_some (if_pos hread)
      rw [hkept, Json.lookup, Json.lookup, ih]
    · have hkept (given : List (Text × Json)) :
          keptParams kind ((n, .text v) :: given) = keptParams kind given :=
        List.filterMap_cons_none (if_neg hread)
      have hne : n ≠ name := fun heq => hread (List.contains_iff_mem.mpr (heq ▸ hname))
      rw [hkept, ih, Json.lookup, if_neg hne]

/-- An action reads the same when it keeps only what it would keep if it were made anew. -/
theorem Action.readsLike_reduced (a : Action) : a.ReadsLike a.reduced := by
  refine ⟨rfl, fun name hname => ?_⟩
  have hkept := lookup_keptParams hname (a.params.getD [])
  unfold param reduced
  rw [getD_params_make, hkept]

/-- **Only the parameters that are read matter.** As long as no observer looks at records, two
workflows have the same runs when their actions are, position by position, of one kind with the same
values for the parameters that it reads; and a workflow has the same runs as the one in which every
action keeps only the parameters that it would keep if it were made anew. -/
theorem Run.reads_parameters_only (h : Host σ) (w : World σ) (hblind : w.IsBlind) :
    (∀ x x' : Workflow, List.Forall₂ Action.ReadsLike x.actions x'.actions →
      SameRuns h w x x') ∧
    ∀ x : Workflow, SameRuns h w x x.reduced := by
  refine ⟨fun x x' hactions => sameRuns_of_readsLike h hactions hblind, fun x => ?_⟩
  refine sameRuns_of_readsLike h ?_ hblind
  unfold Workflow.reduced
  exact List.forall₂_map_right_iff.mpr (List.forall₂_same.mpr fun a _ => a.readsLike_reduced)

/-- A line and a message, with other ids, without a parameter that is not read, and without a
message that is empty. -/
theorem Run.reads_text_and_message :
    let x : Workflow := ⟨"Go", [⟨"a1", .showText, some [("note", "new"), ("text", "Hi")]⟩,
      ⟨"a2", .alert, some [("message", "")]⟩]⟩
    let x' : Workflow := ⟨"Stop", [⟨"b1", .showText, some [("text", "Hi")]⟩, ⟨"b2", .alert, none⟩]⟩
    let w : World HostScript := {
      surface := .fresh, listeners := [Streaming.listener], shelf := ⟨.memory [], ⟨[], [], []⟩⟩
      host := {}, sequencer := .paced 5 }
    w.IsBlind ∧ List.Forall₂ Action.ReadsLike x.actions x'.actions ∧
      SameRuns HostScript.host w x x' ∧ x.reduced ≠ x ∧ SameRuns HostScript.host w x x.reduced := by
  intro x x' w
  have hblind : w.IsBlind := by
    intro l hl
    rw [List.mem_singleton.mp hl]
    exact Streaming.ignoresRecords_listener
  have hactions : List.Forall₂ Action.ReadsLike x.actions x'.actions :=
    .cons ⟨rfl, by decide⟩ (.cons ⟨rfl, by decide⟩ .nil)
  obtain ⟨hsame, hreduced⟩ := Run.reads_parameters_only HostScript.host w hblind
  exact ⟨hblind, hactions, hsame x x' hactions, by decide, hreduced x⟩

end PushButton
