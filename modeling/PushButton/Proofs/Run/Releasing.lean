import PushButton.Proofs.Run.Departure
import PushButton.Proofs.Run.Lifecycle

/-!
# Failing observers and the runs

An observer may fail at any time, which ends the run that has told it something. From then on the
run counts as little as if it had never begun, unless the observer fails when it is told that lines
and images were taken away because the run begins: such a run counts as active for ever.
-/

namespace PushButton

variable {σ : Type}

/-! ## Counting deeds -/

/-- The deeds of the other runs. -/
def deedsBesides (k : Nat) (ds : List (Nat × Deed)) : List (Nat × Deed) := ds.filter (·.1 ≠ k)

section Lists

variable {ds ds' : List (Nat × Deed)} {k : Nat}

/-- Deeds of a sort are done by a run or by the other runs. -/
theorem length_filter_deeds (p : Deed → Bool) (k : Nat) (ds : List (Nat × Deed)) :
    (ds.filter (p ·.2)).length =
      ((deedsBesides k ds).filter (p ·.2)).length + (deedsOf k ds).countP p := by
  unfold deedsBesides deedsOf
  induction ds with
  | nil => rfl
  | cons x rest ih =>
    by_cases hk : x.1 = k
    · by_cases hp : p x.2 = true
      · simp [hk, hp] at ih ⊢
        omega
      · simpa [hk, hp] using ih
    · by_cases hp : p x.2 = true
      · simp [hk, hp] at ih ⊢
        omega
      · simpa [hk, hp] using ih

/-- The runs that have begun are the run and the others. -/
theorem length_begun (k : Nat) (ds : List (Nat × Deed)) : (begun ds).length =
    (begun (deedsBesides k ds)).length + (deedsOf k ds).countP Deed.isBegan := by
  unfold begun
  rw [List.length_map, List.length_map]
  exact length_filter_deeds Deed.isBegan k ds

/-- The runs that have ended are the run and the others. -/
theorem length_ended (k : Nat) (ds : List (Nat × Deed)) : (ended ds).length =
    (ended (deedsBesides k ds)).length + (deedsOf k ds).countP Deed.isLeft := by
  unfold ended
  rw [List.length_map, List.length_map]
  exact length_filter_deeds Deed.isLeft k ds

/-- As many runs are under way as have begun and not ended. -/
theorem Orderly.length_underWay (h : Orderly ds) :
    (underWay ds).length + (ended ds).length = (begun ds).length := by
  induction h with
  | nil => rfl
  | began h hk ih =>
    rw [underWay_append_began fun hended => hk (h.begun_of_ended hended), begun_append_began,
      ended_append_of_ne rfl, List.length_append, List.length_append]
    simp only [List.length_singleton]
    omega
  | left e h hk ih =>
    have hleft := h.length_underWay_left hk e
    rw [begun_append_of_ne rfl, ended_append_left, List.length_append]
    simp only [List.length_singleton]
    omega
  | within _ _ hbegan hleft ih =>
    rw [underWay_append_of_ne hbegan hleft, begun_append_of_ne hbegan, ended_append_of_ne hleft]
    exact ih

/-- Plain deeds neither begin nor end a run. -/
theorem ArePlain.countP_eq_zero {ds : List Deed} (h : ArePlain ds) :
    ds.countP Deed.isBegan = 0 ∧ ds.countP Deed.isLeft = 0 := by
  constructor
  · exact List.countP_eq_zero.mpr fun d hd => by simp [(h d hd).1]
  · exact List.countP_eq_zero.mpr fun d hd => by simp [(h d hd).2]

/-- A run that has ended has ended as often as it has begun, unless it has failed to begin. -/
theorem Phase.Suits.countP_eq {ls : List Listener} {r : Run} {ds : List Deed}
    (h : r.phase.Suits ls ds) (hended : r.phase = .ended) (hbegan : ¬ r.FailedToBegin ds) :
    ds.countP Deed.isBegan = ds.countP Deed.isLeft := by
  have hnot : ds ≠ [.began] := fun hds => hbegan ⟨hended, hds⟩
  rw [hended] at h
  cases h with
  | dropped => rfl
  | stuck => exact (hnot rfl).elim
  | active hactive => cases hactive
  | left e hplain =>
    obtain ⟨hbegan, hleft⟩ := hplain.countP_eq_zero
    simp only [List.countP_append, List.countP_cons, hbegan, hleft]
    rfl

end Lists

/-! ## Runs that fail -/

namespace Run

variable {p : Pauses}

/-- A part of a run fails where it reports a failure. -/
def FailsOpenly (act : Act σ (Run × Progress)) : Prop :=
  ∀ w r f w', act.exec w ≠ (.ok (r, .failed f), w')

/-- A step in front of a part of a run. -/
theorem FailsOpenly.behind {α : Type} {act : Act σ α} {next : α → Act σ (Run × Progress)}
    (hnext : ∀ x, FailsOpenly (next x)) : FailsOpenly (act >>= next) := by
  intro w r f w' hexec
  rw [Act.exec_bind] at hexec
  cases hact : act.exec w with
  | mk res w₁ =>
    rw [hact] at hexec
    cases res with
    | error f' => cases hexec
    | ok x => exact hnext x w₁ r f w' hexec

/-- A part of a run that says how far it has come. -/
theorem FailsOpenly.pure {r : Run} {progress : Progress} (hprogress : ∀ f, progress ≠ .failed f) :
    FailsOpenly (pure (r, progress) : Act σ (Run × Progress)) := by
  intro w r' f w' hexec
  cases hexec
  exact hprogress f rfl

/-- What follows an action fails openly, if it does so when the run goes on. -/
theorem failsOpenly_applied (r : Run) (a : Action) (e : Effect)
    {onward : Act σ (Run × Progress)} (honward : FailsOpenly onward) :
    FailsOpenly (applied p r a e onward) := by
  cases e with
  | reload =>
    refine .behind fun _ => .behind fun _ => ?_
    split
    · exact .pure nofun
    · exact .pure nofun
  | proceed =>
    unfold applied
    dsimp only
    split
    · exact .pure nofun
    · exact honward

/-- A step fails openly, if the run does so when it goes on. -/
theorem failsOpenly_step (h : Host σ) (r : Run) (a : Action) {onward : Act σ (Run × Progress)}
    (honward : FailsOpenly onward) : FailsOpenly (step h p r a onward) := by
  refine .behind fun _ => .behind fun _ => .behind fun b => ?_
  cases b with
  | waiting q since => exact .pure nofun
  | applied e => exact failsOpenly_applied r a e honward

/-- A run fails openly behind its beginning. The induction is on the actions that are left. -/
theorem failsOpenly_steps (h : Host σ) (actions : List Action) (r : Run) :
    FailsOpenly (steps h p r actions) := by
  induction actions generalizing r with
  | nil => exact .behind fun _ => .behind fun _ => .pure nofun
  | cons a rest ih =>
    refine .behind fun _ => .behind fun _ => ?_
    split
    · exact .pure nofun
    · exact failsOpenly_step h r a (ih r.next)

/-- A part of an active run that reports a failure has ended the run. -/
theorem FailsOpenly.phase_outcome {act : Act σ (Run × Progress)} (hact : FailsOpenly act) (r : Run)
    (w : World σ) {f : Failure} (hfailed : (outcome r (act.exec w)).1.2 = .failed f) :
    (outcome r (act.exec w)).1.1.phase = .ended := by
  cases hexec : act.exec w with
  | mk res w' =>
    rw [hexec] at hfailed
    cases res with
    | error f' => rfl
    | ok x =>
      obtain ⟨r', progress⟩ := x
      obtain rfl : progress = .failed f := hfailed
      exact (hact w r' f w' hexec).elim

/-- A run that has failed has ended. -/
theorem phase_of_failed {h : Host σ} {r : Run} {w : World σ} {f : Failure}
    (hfailed : ((advance h p r).run w).1.2 = .failed f) :
    ((advance h p r).run w).1.1.phase = .ended := by
  cases hph : r.phase with
  | fresh =>
    by_cases hrem : r.remaining = []
    · rw [run_advance_idle hph hrem]
    · rw [run_advance_fresh hph hrem] at hfailed ⊢
      cases hbegin : r.begin.exec w with
      | mk res w' =>
        rw [hbegin] at hfailed
        cases res with
        | error f' => rfl
        | ok r' => exact (failsOpenly_steps h _ _).phase_outcome _ _ hfailed
  | pacing =>
    cases hrem : r.remaining with
    | nil =>
      rw [run_advance_nothing (by simp [isBetween, hph]) hrem] at hfailed
      cases hfailed
    | cons a rest =>
      rw [run_advance_pacing hph hrem] at hfailed ⊢
      exact (failsOpenly_step h _ _ (failsOpenly_steps h _ _)).phase_outcome _ _ hfailed
  | asking q since =>
    cases hrem : r.remaining with
    | nil =>
      rw [run_advance_nothing (by simp [isBetween, hph]) hrem] at hfailed
      cases hfailed
    | cons a rest =>
      rw [run_advance_asking hph hrem] at hfailed ⊢
      refine FailsOpenly.phase_outcome (.behind fun e => ?_) _ _ hfailed
      exact failsOpenly_applied r a e (failsOpenly_steps h _ _)
  | between =>
    rw [run_advance_between hph] at hfailed ⊢
    exact (failsOpenly_steps h _ _).phase_outcome _ _ hfailed
  | reloaded => rw [run_advance_reloaded hph]
  | ended => rw [run_advance_ended hph, hph]

end Run

/-! ## Runs that count as little as before -/

namespace History

variable {h : Host σ} {w₀ : World σ} {t t' : Traffic σ} {ds ds' : List (Nat × Deed)} {ms : Int}

/-- What is known about the runs is right, whatever the observers do. -/
theorem isRight (hist : History h ⟨{ w₀ with sequencer := .paced ms }, []⟩ ds t) :
    IsRight ds t.world.sequencer := by
  rw [(hist.follows nofun).sequencer]
  exact hist.orderly.isRight ms

/-- From the moment at which a run is fresh to one at which it has ended, as many more runs count as
active as other runs have begun, and as many less as other runs have ended. -/
theorem active_eq (hist : History h ⟨{ w₀ with sequencer := .paced ms }, []⟩ ds t)
    (hist' : History h t ds' t') {k : Nat} {s s' : StartedRun} (hs : t.runs[k]? = some s)
    (hfresh : s.run.phase = .fresh) (hs' : t'.runs[k]? = some s') (hended : s'.run.phase = .ended)
    (hbegan : ¬ s'.run.FailedToBegin (deedsOf k ds')) :
    t'.world.sequencer.active + (ended (deedsBesides k ds')).length =
      t.world.sequencer.active + (begun (deedsBesides k ds')).length := by
  have hwhole := hist.append hist'
  have hnothing : deedsOf k ds = [] := (hist.shows_runs.2 k s hs).suits.eq_nil hfresh
  have hsuits := (hwhole.shows_runs.2 k s' hs').suits
  rw [deedsOf_append, hnothing, List.nil_append] at hsuits
  have hcount := hsuits.countP_eq hended hbegan
  have hactive := hist.isRight.active
  have hactive' := hwhole.isRight.active
  have hlength := hist.orderly.length_underWay
  have hlength' := hwhole.orderly.length_underWay
  have hbegun := length_begun k ds'
  have hends := length_ended k ds'
  rw [begun_append, ended_append, List.length_append, List.length_append] at hlength'
  omega

end History

/-- A run that has failed when it goes on has ended. -/
theorem Traffic.phase_of_progress {h : Host σ} {t : Traffic σ} {k : Nat} {f : Failure}
    (hfailed : t.progress h (.resume k) = some (.failed f)) :
    ∃ s, (t.take h (.resume k)).runs[k]? = some s ∧ s.run.phase = .ended := by
  obtain ⟨s, hs, hprogress⟩ := Option.map_eq_some_iff.mp hfailed
  obtain ⟨hk, -⟩ := List.getElem?_eq_some_iff.mp hs
  refine ⟨{ s with run := ((s.run.advance h s.pauses).run t.world).1.1 }, ?_,
    Run.phase_of_failed hprogress⟩
  unfold take
  dsimp only
  rw [drive_of_getElem? hs]
  exact List.getElem?_set_self hk

/-- **A failing observer leaves no run behind**, unless it fails when a run begins. Whatever is done
with any number of runs has a history, whatever the observers and the host do. At every moment of a
history, as many runs count as active as are under way, which are those in the middle of their
course and those that have failed to begin; the runs are said to be running where there is one, and
otherwise there is no current position. A run fails to begin only because of an observer that fails
when it is told that lines and images were taken away. A run that fails later has ended. When a run
has ended that was fresh before and has not failed to begin, as many runs count as active as before,
but for what the other runs have done. -/
theorem Traffic.releases_failed_runs (h : Host σ) (w₀ : World σ) (ms : Int) :
    (∀ turns, ∃ ds, History h ⟨{ w₀ with sequencer := .paced ms }, []⟩ ds
      (Traffic.takeAll h ⟨{ w₀ with sequencer := .paced ms }, []⟩ turns)) ∧
    ∀ ds t, History h ⟨{ w₀ with sequencer := .paced ms }, []⟩ ds t →
      IsRight ds t.world.sequencer ∧
      (∀ k, k ∈ underWay ds ↔ ∃ s, t.runs[k]? = some s ∧
        (s.run.phase.isActive = true ∨ s.run.FailedToBegin (deedsOf k ds))) ∧
      (t.world.sequencer.status = "running" ↔ underWay ds ≠ []) ∧
      (underWay ds = [] → t.world.sequencer.current = none) ∧
      (∀ k (s : StartedRun), t.runs[k]? = some s → s.run.FailedToBegin (deedsOf k ds) →
        ∃ l ∈ w₀.listeners, l.FailsAtClearing) ∧
      (∀ k f, t.progress h (.resume k) = some (.failed f) →
        ∃ s, (t.take h (.resume k)).runs[k]? = some s ∧ s.run.phase = .ended) ∧
      ∀ k (s : StartedRun), t.runs[k]? = some s → s.run.phase = .fresh →
        ∀ ds' t' (s' : StartedRun), History h t ds' t' → t'.runs[k]? = some s' →
          s'.run.phase = .ended → ¬ s'.run.FailedToBegin (deedsOf k ds') →
          t'.world.sequencer.active + (ended (deedsBesides k ds')).length =
            t.world.sequencer.active + (begun (deedsBesides k ds')).length ∧
          (begun (deedsBesides k ds') = [] → ended (deedsBesides k ds') = [] →
            t'.world.sequencer.active = t.world.sequencer.active ∧
            t'.world.sequencer.status = t.world.sequencer.status ∧
            (t.world.sequencer.active = 0 → t'.world.sequencer.current = none)) := by
  refine ⟨History.exists_takeAll h nofun, fun ds t hist => ?_⟩
  have hidle {ds t} (hist : History h ⟨{ w₀ with sequencer := .paced ms }, []⟩ ds t) :
      t.world.sequencer.active = 0 ↔ underWay ds = [] := by
    rw [hist.isRight.active, ← List.length_eq_zero_iff]
    omega
  refine ⟨hist.isRight, fun k => hist.mem_underWay, ?_, hist.isRight.current.eq_none,
    fun k s hs => (hist.shows_runs.2 k s hs).suits.exists_failing,
    fun k f => Traffic.phase_of_progress, ?_⟩
  · rw [Sequencer.status_eq_running, hist.isRight.active, ← List.length_pos_iff]
    omega
  · intro k s hs hfresh ds' t' s' hist' hs' hended hbegan
    have hcount := hist.active_eq hist' hs hfresh hs' hended hbegan
    refine ⟨hcount, fun hbegun hends => ?_⟩
    rw [hbegun, hends] at hcount
    have hsame : t'.world.sequencer.active = t.world.sequencer.active := by simpa using hcount
    refine ⟨hsame, ?_, fun hnone => ?_⟩
    · unfold Sequencer.status Sequencer.isRunning
      rw [hsame]
    · have hwhole := hist.append hist'
      exact hwhole.isRight.current.eq_none ((hidle hwhole).mp (hsame.trans hnone))

/-- An observer that fails when the button is disabled ends the run that disables it, and no run
counts as active then. -/
theorem Traffic.releases_run_of_broken_button :
    let breaks : Listener :=
      { name := "x"
        react := fun
          | .disabled, _, _ => { failure := some ⟨.page, "gone"⟩ }
          | _, _, _ => {} }
    let disables : Workflow := ⟨"Go", [⟨"a1", .disableButton, none⟩]⟩
    let w : World HostScript := {
      surface := .fresh, listeners := [breaks], shelf := ⟨.memory [], ⟨[], [], []⟩⟩
      sequencer := .paced 0, host := {} }
    let t := Traffic.takeAll HostScript.host ⟨w, []⟩ [.start (some disables) false]
    let t' := t.take HostScript.host (.resume 0)
    t.progress HostScript.host (.resume 0) = some (.failed ⟨.page, "gone"⟩) ∧
      t'.world.sequencer.active = t.world.sequencer.active ∧
      t'.world.sequencer.status = t.world.sequencer.status ∧
      t'.world.sequencer.current = none := by
  intro breaks disables w t t'
  have hfailed : t.progress HostScript.host (.resume 0) = some (.failed ⟨.page, "gone"⟩) := rfl
  obtain ⟨-, hkept⟩ := Traffic.releases_failed_runs HostScript.host w 0
  have hist : History HostScript.host ⟨w, []⟩ [] t := .started _ _ .nil
  have hs : t.runs[0]? = some (.new (some disables) false) := rfl
  obtain ⟨ds, hmoves, -⟩ := Run.exists_moves_advance HostScript.host
    (StartedRun.new (some disables) false).pauses (.ofWorkflow (some disables)) t.world
  have hist' : History HostScript.host t (ds.map (0, ·)) t' := History.nil.movedAll hs hmoves rfl
  obtain ⟨-, -, -, -, -, hends, hreleases⟩ := hkept [] t hist
  obtain ⟨-, -, -, -, hbegins, -⟩ := hkept _ t' (hist.append hist')
  obtain ⟨s', hs', hended⟩ := hends 0 _ hfailed
  have hbegan : ¬ s'.run.FailedToBegin (deedsOf 0 (ds.map (0, ·))) := by
    intro hbegan
    obtain ⟨l, hl, field, s, past, hfield, -, -, hfails⟩ := hbegins 0 s' hs' hbegan
    obtain rfl := List.mem_singleton.mp hl
    obtain rfl | rfl := hfield
    · exact hfails rfl
    · exact hfails rfl
  have halone : deedsBesides 0 (ds.map (0, ·)) = [] :=
    List.filter_eq_nil_iff.mpr (by simp)
  obtain ⟨-, hsame⟩ := hreleases 0 _ hs rfl _ t' s' hist' hs' hended hbegan
  rw [halone] at hsame
  obtain ⟨hactive, hstatus, hcurrent⟩ := hsame rfl rfl
  exact ⟨hfailed, hactive, hstatus, hcurrent rfl⟩

/-- An observer that fails when the run begins leaves it behind for ever: the run has ended, but it
counts as active. -/
theorem Traffic.not_every_failed_run_released :
    ¬ ∀ (w₀ : World HostScript) (ms : Int) (x : Workflow) (f : Failure),
      let t := Traffic.takeAll HostScript.host ⟨{ w₀ with sequencer := .paced ms }, []⟩
        [.start (some x) false]
      t.progress HostScript.host (.resume 0) = some (.failed f) →
        let s := (t.take HostScript.host (.resume 0)).world.sequencer
        s.active = t.world.sequencer.active ∧ s.status = t.world.sequencer.status := by
  intro hall
  let breaks : Listener :=
    { name := "x", react := fun _ _ _ => { failure := some ⟨.page, "gone"⟩ } }
  let w : World HostScript := {
    surface := .fresh, listeners := [breaks], shelf := ⟨.memory [], ⟨[], [], []⟩⟩
    sequencer := .paced 0, host := {} }
  obtain ⟨hsame, -⟩ := hall w 0 ⟨"Go", [⟨"a1", .disableButton, none⟩]⟩ ⟨.page, "gone"⟩ rfl
  cases hsame

end PushButton
