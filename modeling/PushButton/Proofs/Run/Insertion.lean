import PushButton.Host.Scripted
import PushButton.Proofs.Run.Replay
import PushButton.Proofs.Run.Times
import PushButton.Proofs.Workflow.Made

/-!
# Incomplete actions make no difference

An action that lacks a parameter that it needs does nothing. So a run of some actions and a run of
the same actions with incomplete ones among them do the same, wherever the incomplete ones stand:
the second run only waits longer, takes more steps and makes more records.
-/

namespace PushButton

variable {σ : Type}

/-! ## Incomplete actions -/

/-- The action lacks a parameter that it needs: it has none of that name, or an empty one. -/
def Action.IsIncomplete (a : Action) : Prop :=
  match a.kind with
  | .showImage => a.param "url" = []
  | .setLocalStorage => a.param "key" = [] ∨ a.param "value" = []
  | .getLocalStorage => a.param "key" = []
  | .changeButtonColor => a.param "color" = []
  | _ => False

/-- The parameters without which an action of a kind does nothing. -/
def ActionKind.needed : ActionKind → List Text
  | .showImage => ["url"]
  | .setLocalStorage => ["key", "value"]
  | .getLocalStorage => ["key"]
  | .changeButtonColor => ["color"]
  | _ => []

/-- An action is incomplete when it lacks one of the parameters that are needed. -/
theorem Action.isIncomplete_iff {a : Action} :
    a.IsIncomplete ↔ ∃ name ∈ a.kind.needed, a.param name = [] := by
  unfold IsIncomplete ActionKind.needed
  cases a.kind with
  | setLocalStorage =>
    constructor
    · rintro (hkey | hvalue)
      · exact ⟨_, by simp, hkey⟩
      · exact ⟨_, by simp, hvalue⟩
    · rintro ⟨name, hname, hlacks⟩
      obtain rfl | rfl := List.mem_pair.mp hname
      · exact .inl hlacks
      · exact .inr hlacks
  | showImage | getLocalStorage | changeButtonColor => simp
  | alert | showText | refreshPage | increaseButtonSize | closeWindow | promptAndShow
  | disableButton => simp

/-- Data about an action leave a parameter out, or give it as nothing or as an empty text: the field
of the parameters is missing or has no value, or no entry in it gives the parameter a text. -/
def Datum.LeavesOut (name : Text) (entries : List (Datum × Datum)) : Prop :=
  match Datum.entry? "params" entries with
  | some (.map given) => ∀ e ∈ given, e.1.shown = name → e.2 = .null ∨ e.2 = .text []
  | _ => True

/-- A parameter that data leave out, or give as nothing or as an empty text, is one that an action
lacks. The induction is on the entries of the data. -/
theorem Checked.lookup_paramsOf {name : Text} {entries : List (Datum × Datum)}
    (hlacks : ∀ e ∈ entries, e.1.shown = name → e.2 = .null ∨ e.2 = .text []) :
    (Json.lookup name (paramsOf entries)).getD [] = [] := by
  have hfold (acc : List (Text × Text)) (hacc : (Json.lookup name acc).getD [] = []) :
      (Json.lookup name (entries.foldl putParam acc)).getD [] = [] := by
    induction entries generalizing acc with
    | nil => exact hacc
    | cons e rest ih =>
      refine ih (fun e' he' => hlacks e' (by simp [he'])) _ ?_
      obtain ⟨key, value⟩ := e
      have hvalue := hlacks (key, value) (by simp)
      by_cases hname : key.shown = name
      · obtain rfl | rfl := hvalue hname
        · exact hacc
        · change (Json.lookup name (Json.put key.shown [] acc)).getD [] = []
          rw [Json.lookup_put, if_pos hname]
          rfl
      · unfold putParam
        split
        · exact hacc
        · next hentry =>
          obtain ⟨rfl, rfl⟩ := Prod.mk.inj hentry
          rw [Json.lookup_put, if_neg hname]
          exact hacc
  exact hfold [] rfl

/-- An action that is read from data which leave out a parameter that it needs is incomplete. -/
theorem Action.isIncomplete_of_leavesOut {entries : List (Datum × Datum)} {a : Action}
    (hread : Checked.action (.map entries) = .ok a) {name : Text} (hneeded : name ∈ a.kind.needed)
    (hout : Datum.LeavesOut name entries) : a.IsIncomplete := by
  have hparams := Checked.optional_params_of_action hread
  refine isIncomplete_iff.mpr ⟨name, hneeded, ?_⟩
  unfold Datum.LeavesOut at hout
  unfold Checked.optional at hparams
  unfold param
  cases hfield : Datum.entry? "params" entries with
  | none =>
    rw [hfield] at hparams
    rw [← Except.ok.inj hparams]
    rfl
  | some d =>
    rw [hfield] at hparams hout
    have hchecked := Checked.of_under_eq_ok hparams
    unfold Checked.params at hchecked
    split at hchecked
    · rw [← Except.ok.inj hchecked]
      rfl
    · split at hchecked
      · cases hchecked
      · rw [← Except.ok.inj hchecked]
        exact Checked.lookup_paramsOf hout
    · cases hchecked

/-- The second list has the actions of the first one and incomplete ones among them. -/
inductive Pads : List Action → List Action → Prop
  /-- No action. -/
  | nil : Pads [] []
  /-- The same action in both lists. -/
  | keep {xs ys : List Action} (a : Action) : Pads xs ys → Pads (a :: xs) (a :: ys)
  /-- An incomplete action. -/
  | insert {xs ys : List Action} {a : Action} : a.IsIncomplete → Pads xs ys → Pads xs (a :: ys)

/-- A list with incomplete actions has no action only if the other list has none. -/
theorem Pads.ne_nil {xs ys : List Action} (h : Pads xs ys) (hxs : xs ≠ []) : ys ≠ [] := by
  cases h with
  | nil => exact (hxs rfl).elim
  | keep | insert => simp

/-- Incomplete actions make a list longer. -/
theorem Pads.length_le {xs ys : List Action} (h : Pads xs ys) : xs.length ≤ ys.length := by
  induction h with
  | nil => exact Nat.le_refl _
  | keep _ _ ih => exact Nat.succ_le_succ ih
  | insert _ _ ih => exact Nat.le_succ_of_le ih

/-- An incomplete action asks the host for nothing. -/
theorem Action.IsIncomplete.request?_eq {a : Action} (ha : a.IsIncomplete) : a.request? = none := by
  unfold IsIncomplete at ha
  unfold request?
  cases hkind : a.kind with
  | alert | promptAndShow | refreshPage | closeWindow =>
    rw [hkind] at ha
    exact ha.elim
  | showText | showImage | setLocalStorage | getLocalStorage | increaseButtonSize
  | changeButtonColor | disableButton => rfl

/-- An incomplete action does nothing. -/
theorem Action.IsIncomplete.perform_eq {a : Action} (ha : a.IsIncomplete) :
    a.perform = (pure () : Act σ Unit) := by
  unfold IsIncomplete at ha
  unfold perform
  cases hkind : a.kind with
  | showImage =>
    rw [hkind] at ha
    dsimp only
    rw [ha]
    rfl
  | setLocalStorage =>
    rw [hkind] at ha
    unfold saveItem
    have hempty : ((a.param "key").isEmpty || (a.param "value").isEmpty) = true := by
      simpa using ha
    dsimp only
    rw [if_pos hempty]
  | getLocalStorage =>
    rw [hkind] at ha
    unfold showItem
    dsimp only
    rw [ha]
    rfl
  | changeButtonColor =>
    rw [hkind] at ha
    dsimp only
    rw [ha]
    rfl
  | showText | increaseButtonSize | disableButton =>
    rw [hkind] at ha
    exact ha.elim
  | alert | promptAndShow | refreshPage | closeWindow => rfl

/-- Applying an incomplete action makes two records, and the run goes on. -/
theorem Action.IsIncomplete.exec_apply {a : Action} (ha : a.IsIncomplete) (h : Host σ)
    (w : World σ) : ∃ r r' : Record,
      (a.apply h).exec w = (.ok .proceed, (w.after [.logged r]).after [.logged r']) := by
  unfold apply
  simp only [Act.exec_bind, start_eq_launch, Act.exec_log, launch, Act.exec_get, ha.request?_eq,
    exec_timed, ha.perform_eq, Act.exec_pure]
  exact ⟨_, _, rfl⟩

/-! ## Worlds that differ in waiting times -/

namespace Occurrence

/-- Something that can be seen: neither a record nor a waiting time. -/
def isSeen : Occurrence → Bool
  | .logged _ | .slept _ => false
  | _ => true

end Occurrence

/-- An observer that looks neither at records nor at waiting times. -/
def Listener.IgnoresWaiting (l : Listener) : Prop :=
  ∀ field s past, l.react field s past = l.react field s (past.filter Occurrence.isSeen)

/-- The observer that prints the lines looks neither at records nor at waiting times. -/
theorem Streaming.ignoresWaiting_listener : listener.IgnoresWaiting :=
  react_filter fun _ _ _ _ => rfl

/-- So many waiting times of some milliseconds; waiting no time does not count. -/
def waitingTimes (ms n : Nat) : List Occurrence :=
  if ms > 0 then List.replicate n (.slept ms) else []

/-- In the second world so many waiting times more have passed than in the first one. Records and
the current position may differ, and nothing else; no observer looks at records or waiting times. -/
structure World.Lingers (ms n : Nat) (w w' : World σ) : Prop where
  /-- The surface is the same. -/
  surface : w.surface = w'.surface
  /-- The observers are the same. -/
  listeners : w.listeners = w'.listeners
  /-- The storage and the files are the same. -/
  shelf : w.shelf = w'.shelf
  /-- The random numbers to come are the same. -/
  draws : w.draws = w'.draws
  /-- So many waiting times more. -/
  clock : w'.clock = w.clock + n * ms
  /-- As many run ids were given. -/
  runIds : w.runIds = w'.runIds
  /-- The host is in the same state. -/
  host : w.host = w'.host
  /-- The same is known about the runs, the current position apart. -/
  runs : { w.sequencer with current := none } = { w'.sequencer with current := none }
  /-- The same was seen. -/
  past : w.past.filter Occurrence.isSeen = w'.past.filter Occurrence.isSeen
  /-- So many waiting times more. -/
  waits : (w'.past.filter Occurrence.isSleep).Perm
    (waitingTimes ms n ++ w.past.filter Occurrence.isSleep)
  /-- No observer looks at records or waiting times. -/
  blind : ∀ l ∈ w.listeners, l.IgnoresWaiting

/-- What is known about the runs is the same with the same current position. -/
theorem Sequencer.ext_current {s s' : Sequencer}
    (h : { s with current := none } = { s' with current := none })
    (hcurrent : s.current = s'.current) : s = s' := by
  obtain ⟨pacing, started, active, current⟩ := s
  obtain ⟨pacing', started', active', current'⟩ := s'
  obtain rfl := hcurrent
  simpa using h

namespace World.Lingers

variable {ms n : Nat} {w w' : World σ}

/-- A world with itself. -/
theorem refl (ms : Nat) (hblind : ∀ l ∈ w.listeners, l.IgnoresWaiting) : w.Lingers ms 0 w where
  surface := rfl
  listeners := rfl
  shelf := rfl
  draws := rfl
  clock := by rw [Nat.zero_mul, Nat.add_zero]
  runIds := rfl
  host := rfl
  runs := rfl
  past := rfl
  waits := by
    have hnone : waitingTimes ms 0 = [] := by simp [waitingTimes]
    rw [hnone, List.nil_append]
  blind := hblind

/-- The same happens in both worlds. -/
theorem after (h : w.Lingers ms n w') (os : List Occurrence) :
    (w.after os).Lingers ms n (w'.after os) := by
  refine { h with past := ?_, waits := ?_ }
  · change (os.reverse ++ w.past).filter _ = (os.reverse ++ w'.past).filter _
    rw [List.filter_append, List.filter_append, h.past]
  · change ((os.reverse ++ w'.past).filter _).Perm (_ ++ (os.reverse ++ w.past).filter _)
    rw [List.filter_append, List.filter_append]
    exact (h.waits.append_left _).trans (List.perm_append_comm_assoc ..)

/-- Records are made. -/
theorem after_records (h : w.Lingers ms n w') (r r' : Record) :
    (w.after [.logged r]).Lingers ms n (w'.after [.logged r']) :=
  { h with past := h.past, waits := h.waits }

/-- A record is made in the second world. -/
theorem after_record (h : w.Lingers ms n w') (r : Record) : w.Lingers ms n (w'.after [.logged r]) :=
  { h with past := h.past, waits := h.waits }

end World.Lingers

/-- Such worlds are like each other for all that actions look at. -/
instance (ms n : Nat) : World.Likeness (World.Lingers (σ := σ) ms n) where
  surface hw := hw.surface
  listeners hw := hw.listeners
  shelf hw := hw.shelf
  draws hw := hw.draws
  blind hw l hl field u u' hu := by
    rw [hw.blind l hl field u.surface, hw.blind l hl field u'.surface, hu.surface, hu.past]
  after os hw := hw.after os
  with_surface s hw := { hw with surface := rfl }
  with_listeners hls hw :=
    { hw with listeners := rfl, blind := fun l hl => hw.blind l (hls.subset hl) }
  with_shelf s hw := { hw with shelf := rfl }
  with_draws ns hw := { hw with draws := rfl }
  took _ _ _ _ hw := hw.after_records _ _

instance (h : Host σ) (ms n : Nat) : h.Heeds (World.Lingers ms n) :=
  .of_same (·.host) fun _ hw => { hw with host := rfl }

/-- The id of the action that was applied, with its effect. -/
def Progress.taken? : Progress → Option (Text × Effect)
  | .stepped _ id e => some (id, e)
  | _ => none

namespace Run

variable {h : Host σ} {ms n : Nat}

/-! ## Playing actions -/

/-- A waiting time passes in both worlds. -/
theorem agreesUpTo_sleep_both (k : Nat) :
    Act.AgreesUpTo (World.Lingers ms n) (Act.sleep k : Act σ Unit) (Act.sleep k) := by
  unfold Act.sleep
  split
  · refine (Act.AgreesUpTo.modify fun w w' hw => ?_).bind fun _ => Act.agreesUpTo_occur _
    refine { hw with clock := ?_ }
    have hclock := hw.clock
    dsimp only
    omega
  · exact Act.AgreesUpTo.pure _

/-- Two runs take up an action, each at a position of its own. -/
theorem agreesUpTo_announce_both (r r' : Run) (a : Action) :
    Act.AgreesUpTo (World.Lingers ms n) (r.announce a : Act σ Unit) (r'.announce a) := by
  intro w w' hw
  have hcurrent : World.Lingers ms n
      { w with sequencer := { w.sequencer with current := some r.index } }
      { w' with sequencer := { w'.sequencer with current := some r'.index } } :=
    { hw with runs := hw.runs }
  exact ⟨rfl, hcurrent.after_records _ _⟩

/-- Two runs play the same action. -/
theorem agreesUpTo_play_both (r r' : Run) (k : Nat) (a : Action) :
    Act.AgreesUpTo (World.Lingers ms n) (r.play h k a) (r'.play h k a) := by
  refine (agreesUpTo_sleep_both k).bind fun _ => (agreesUpTo_announce_both r r' a).bind fun _ => ?_
  refine (Action.agreesUpTo_apply h a).bind fun e => ?_
  cases e with
  | proceed => exact Act.AgreesUpTo.pure _
  | reload =>
    have hremount : Act.AgreesUpTo (World.Lingers ms n) (r.remount a : Act σ Unit)
        (r'.remount a) := by
      unfold remount
      refine Act.AgreesUpTo.bind (fun w w' hw => ⟨rfl, hw.after_records _ _⟩) fun _ => ?_
      exact Act.agreesUpTo_remake
    exact hremount.bind fun _ => Act.AgreesUpTo.pure _

/-- A run that plays an incomplete action only waits. -/
theorem exists_exec_play_incomplete (r : Run) {a : Action} (ha : a.IsIncomplete) {w w' : World σ}
    (hw : w.Lingers ms n w') :
    ∃ u, (r.play h ms a).exec w' = (.ok .proceed, u) ∧ w.Lingers ms (n + 1) u := by
  have hslept : World.Lingers ms (n + 1) w { w' with
      clock := w'.clock + ms
      past := if ms > 0 then .slept ms :: w'.past else w'.past } := by
    refine { hw with clock := ?_, past := ?_, waits := ?_ }
    · have hclock := hw.clock
      rw [Nat.add_mul, Nat.one_mul]
      dsimp only
      omega
    · rw [hw.past]
      split
      · rfl
      · rfl
    · have hwaits := hw.waits
      unfold waitingTimes at hwaits ⊢
      split
      · next hms =>
        rw [if_pos hms] at hwaits
        exact hwaits.cons (.slept ms)
      · next hms =>
        rw [if_neg hms] at hwaits
        exact hwaits
  unfold play
  rw [Act.exec_bind, Act.exec_sleep]
  generalize World.mk .. = v at hslept
  dsimp only
  obtain ⟨v', hannounce, hannounced⟩ : ∃ v', (r.announce a).exec v = (.ok (), v') ∧
      w.Lingers ms (n + 1) v' := by
    refine ⟨_, rfl, ?_⟩
    have hcurrent : World.Lingers ms (n + 1) w
        { v with sequencer := { v.sequencer with current := some r.index } } :=
      { hslept with runs := hslept.runs }
    exact hcurrent.after_record _
  obtain ⟨record, record', happly⟩ := ha.exec_apply h v'
  rw [Act.exec_bind, hannounce]
  dsimp only
  rw [Act.exec_bind, happly]
  exact ⟨_, rfl, (hannounced.after_record record).after_record record'⟩

/-! ## The course of the runs -/

/-- Runs end alike. -/
theorem lingers_released {w w' : World σ} (hw : w.Lingers ms n w') :
    w.released.Lingers ms n w'.released :=
  { hw with runs := congrArg (fun s => { s with active := s.active - 1 }) hw.runs }

/-- What comes of two runs, the second of which may wait longer. -/
structure LingersBehind (ms n : Nat) (x y : Replay σ) : Prop where
  /-- They have the same result. -/
  result : x.result = y.result
  /-- Their worlds differ in waiting times. -/
  world : x.world.Lingers ms n y.world
  /-- The second one takes the steps of the first one in the same order, and maybe more. -/
  steps : (x.steps.filterMap (·.1.taken?)).Sublist (y.steps.filterMap (·.1.taken?))

/-- An active run with incomplete actions among those that are left only waits longer. The induction
is on the way in which they stand there. -/
theorem exists_lingersBehind_remainder {xs ys : List Action} (hpads : Pads xs ys) (r r' : Run)
    {w w' : World σ} (hw : w.Lingers ms n w') :
    ∃ m, m + xs.length ≤ n + ys.length ∧
      LingersBehind ms m (remainder h ms r xs w) (remainder h ms r' ys w') := by
  induction hpads generalizing n r r' w w' with
  | nil =>
    obtain ⟨record, hfinish⟩ := r.exec_finish w
    obtain ⟨record', hfinish'⟩ := r'.exec_finish w'
    refine ⟨n, Nat.le_refl _, rfl, ?_, .slnil⟩
    change (r.finish.exec w).2.released.Lingers ms n (r'.finish.exec w').2.released
    rw [hfinish, hfinish']
    exact lingers_released (hw.after_records record record')
  | @keep xs ys a hpads ih =>
    have hplay : Act.AgreesUpTo (World.Lingers ms n) (r.play h ms a) (r'.play h ms a) :=
      agreesUpTo_play_both r r' ms a
    obtain ⟨res, u, u', hu, hu', hlingers⟩ := hplay.exists_exec hw
    have hlength := hpads.length_le
    rw [remainder_cons, remainder_cons, hu, hu']
    cases res with
    | error f => exact ⟨n, by simpa using hlength, rfl, lingers_released hlingers, .slnil⟩
    | ok e =>
      cases e with
      | reload =>
        exact ⟨n, by simpa using hlength, rfl, lingers_released hlingers, .refl _⟩
      | proceed =>
        obtain ⟨m, hm, hlater⟩ := ih r.next r'.next hlingers
        refine ⟨m, ?_, hlater.result, hlater.world, hlater.steps.cons_cons _⟩
        simp only [List.length_cons]
        omega
  | @insert xs ys a ha hpads ih =>
    obtain ⟨u, hu, hlingers⟩ := exists_exec_play_incomplete (h := h) r' ha hw
    obtain ⟨m, hm, hlater⟩ := ih r r'.next hlingers
    rw [remainder_cons ms r', hu]
    refine ⟨m, ?_, hlater.result, hlater.world, hlater.steps.cons _⟩
    simp only [List.length_cons]
    omega

/-- The only active run leaves no current position when it has ended. -/
theorem current_remainder (r : Run) (actions : List Action) {w : World σ}
    (honly : w.sequencer.active = 1) :
    (remainder h ms r actions w).world.sequencer.current = none := by
  have hruns := replay_respects (fun i a => runs_play (h := h) ms { r with index := i } a) actions
    (i := r.index) (w := w)
  have hactive := (congrArg Sequencer.active hruns :)
  unfold remainder
  dsimp only at hactive ⊢
  generalize replay _ r.index actions w = x at hactive ⊢
  have hidle : x.world.sequencer.active - 1 = 0 := by omega
  unfold closing
  split
  · exact if_pos hidle
  · exact if_pos hidle
  · exact if_pos hidle

/-- A run that begins with incomplete actions among its own only waits longer. If no other run is
active, the same is known about the runs afterwards. -/
theorem exists_lingersBehind_course (ms : Nat) {r r' : Run} (hpads : Pads r.remaining r'.remaining)
    {w : World σ} (hblind : ∀ l ∈ w.listeners, l.IgnoresWaiting) :
    ∃ m, m + r.remaining.length ≤ r'.remaining.length ∧
      LingersBehind ms m (r.course h ms w) (r'.course h ms w) ∧
      (w.sequencer.active = 0 →
        (r.course h ms w).world.sequencer = (r'.course h ms w).world.sequencer) := by
  let begun : World σ :=
    { w with
      runIds := w.runIds + 1
      sequencer := { w.sequencer with
        started := w.sequencer.started + 1, active := w.sequencer.active + 1 } }
  have hbegun : begun.Lingers ms 0 begun := .refl ms hblind
  have hnumbered : (r.numbered w).Lingers ms 0 (r'.numbered w) := hbegun.after_records _ _
  have hclear : Act.AgreesUpTo (World.Lingers ms 0) (Act.clear : Act σ Unit) Act.clear :=
    Act.agreesUpTo_clear
  obtain ⟨res, u, u', hu, hu', hlingers⟩ := hclear.exists_exec hnumbered
  have hsequencer : u.sequencer = u'.sequencer := by
    have hfollows := (r.follows_begin w).sequencer
    have hfollows' := (r'.follows_begin w).sequencer
    rw [exec_begin, hu] at hfollows
    rw [exec_begin, hu'] at hfollows'
    exact hfollows.trans hfollows'.symm
  unfold course
  rw [exec_begin, exec_begin, hu, hu']
  cases res with
  | error f =>
    exact ⟨0, by simpa using hpads.length_le, ⟨rfl, hlingers, .slnil⟩, fun _ => hsequencer⟩
  | ok _ =>
    obtain ⟨m, hm, hlater⟩ := exists_lingersBehind_remainder (h := h) hpads
      { r with id := idOf (w.runIds + 1), since := w.clock }
      { r' with id := idOf (w.runIds + 1), since := w.clock } hlingers
    refine ⟨m, by simpa using hm, hlater, fun hidle => ?_⟩
    have honly : u.sequencer.active = 1 := by
      have hfollows := (r.follows_begin w).sequencer
      rw [exec_begin, hu] at hfollows
      rw [hfollows]
      change w.sequencer.active + 1 = 1
      omega
    exact Sequencer.ext_current hlater.world.runs
      ((current_remainder _ _ honly).trans (current_remainder _ _ (hsequencer ▸ honly)).symm)

/-- **Incomplete actions make no difference.** An action that is read from data is incomplete when
the data leave out a parameter that it needs, or give it as nothing or as an empty text. A run of
some actions and a run of the same actions with incomplete ones among them, wherever these stand,
have the same result, whatever the host replies, whatever fails and wherever the surface is
reloaded. They leave the same surface, the same storage, the same host and the same random numbers;
observers were told the same, and the host was asked for the same, in the same order. The second run
waits once more for each incomplete action that it has applied, and makes more records; if no other
run is active, the same is known about the runs. When both runs are left after every action, the
second one reports the steps of the first one in their order, and maybe more, and they come to the
same ends. -/
theorem overlooks_incomplete_actions (h : Host σ) {x y : Workflow} (hx : x.actions ≠ [])
    (hpads : Pads x.actions y.actions) {w : World σ}
    (hblind : ∀ l ∈ w.listeners, l.IgnoresWaiting) :
    (∀ entries a, Checked.action (.map entries) = .ok a → ∀ name ∈ a.kind.needed,
      Datum.LeavesOut name entries → a.IsIncomplete) ∧
    ∃ n result u u', n + x.actions.length ≤ y.actions.length ∧
      (complete h (some x)).exec w = (result, u) ∧
      (complete h (some y)).exec w = (result, u') ∧
      u.Lingers w.sequencer.pacing n u' ∧
      (w.sequencer.active = 0 → u.sequencer = u'.sequencer) ∧
      ∃ steps steps' progress,
        reportsOf h (some x) w = steps ++ [(progress, u)] ∧
        reportsOf h (some y) w = steps' ++ [(progress, u')] ∧
        (steps.filterMap (·.1.taken?)).Sublist (steps'.filterMap (·.1.taken?)) := by
  have hy := hpads.ne_nil hx
  have hactions : Pads (ofWorkflow (some x)).remaining (ofWorkflow (some y)).remaining := hpads
  obtain ⟨n, hn, hlingers, hruns⟩ :=
    exists_lingersBehind_course (h := h) w.sequencer.pacing hactions hblind
  have hreports (z : Workflow) (hz : z.actions ≠ []) : reportsOf h (some z) w =
      ((ofWorkflow (some z)).course h w.sequencer.pacing w).reports :=
    iterate_eq_course rfl rfl hz (Nat.le_refl _)
  refine ⟨fun entries a hread name hneeded hout => Action.isIncomplete_of_leavesOut hread hneeded
    hout, n, _, _, _, hn, complete_eq_course rfl hx, ?_, hlingers.world, hruns, _, _, _,
    hreports x hx, ?_, hlingers.steps⟩
  · rw [complete_eq_course rfl hy, hlingers.result]
  · rw [hreports y hy, hlingers.result]
    rfl

/-- Incomplete actions in front of a line, in front of a dialog that is refused and behind it make
no difference to a run that a request to close the surface breaks off: three waiting times more
pass, and the incomplete action behind the request, which was read from data that give its key as
nothing, is never applied. -/
theorem overlooks_incomplete_actions_around_refusal :
    let line : Action := ⟨"a1", .showText, some [("text", "Hi")]⟩
    let dialog : Action := ⟨"a2", .alert, none⟩
    let close : Action := ⟨"a3", .closeWindow, none⟩
    let shown : Action := ⟨"b4", .getLocalStorage, some []⟩
    let data : List (Datum × Datum) := [(.text "id", .text "b4"),
      (.text "type", .text "getLocalStorage"), (.text "params", .map [(.text "key", .null)])]
    let x : Workflow := ⟨"Go", [line, dialog, close]⟩
    let y : Workflow := ⟨"Go", [⟨"b1", .showImage, none⟩, line,
      ⟨"b2", .setLocalStorage, some [("key", "k"), ("value", "")]⟩, dialog,
      ⟨"b3", .changeButtonColor, some [("text", "red")]⟩, close, shown]⟩
    let w : World HostScript := {
      surface := .fresh, listeners := [Streaming.listener], shelf := ⟨.memory [], ⟨[], [], []⟩⟩
      host := { refused := ["alert"], broken := ["close"] }, sequencer := .paced 5 }
    Checked.action (.map data) = .ok shown ∧ Datum.LeavesOut "key" data ∧
      x.actions ≠ [] ∧ Pads x.actions y.actions ∧ (∀ l ∈ w.listeners, l.IgnoresWaiting) ∧
      ∃ n u u', (complete HostScript.host (some x)).exec w =
          (.error ⟨.invalid, "close crashed"⟩, u) ∧
        (complete HostScript.host (some y)).exec w = (.error ⟨.invalid, "close crashed"⟩, u') ∧
        u.Lingers 5 n u' ∧ u.clock = 15 ∧ u'.clock = 30 := by
  intro line dialog close shown data x y w
  have hread : Checked.action (.map data) = .ok shown := by decide +kernel
  have hout : Datum.LeavesOut "key" data := by
    intro e he _
    rw [List.mem_singleton.mp he]
    exact .inl rfl
  have hshown : shown.IsIncomplete :=
    Action.isIncomplete_of_leavesOut hread (List.mem_singleton_self _) hout
  have hx : x.actions ≠ [] := by simp [x]
  have hpads : Pads x.actions y.actions := by
    refine .insert ?_ (.keep _ (.insert ?_ (.keep _ (.insert ?_ (.keep _ (.insert hshown .nil))))))
    · rfl
    · exact .inr rfl
    · rfl
  have hblind : ∀ l ∈ w.listeners, l.IgnoresWaiting := by
    intro l hl
    rw [List.mem_singleton.mp hl]
    exact Streaming.ignoresWaiting_listener
  obtain ⟨-, n, result, u, u', -, hshort, hlong, hlingers, -⟩ :=
    overlooks_incomplete_actions HostScript.host hx hpads hblind
  have hresult : ((complete HostScript.host (some x)).exec w).1 =
      .error ⟨.invalid, "close crashed"⟩ := by decide +kernel
  have hclock : ((complete HostScript.host (some x)).exec w).2.clock = 15 := by decide +kernel
  have hclock' : ((complete HostScript.host (some y)).exec w).2.clock = 30 := by decide +kernel
  rw [hshort] at hresult hclock
  rw [hlong] at hclock'
  obtain rfl : result = _ := hresult
  exact ⟨hread, hout, hx, hpads, hblind, n, u, u', hshort, hlong, hlingers, hclock, hclock'⟩

end Run

end PushButton
