import PushButton.Host.Scripted
import PushButton.Proofs.Run.Stages
import PushButton.Run.Streaming

/-!
# The lifecycle of the runs

When no observer fails, a run that has begun always ends properly: whatever the host replies, and
wherever the run is cancelled or closed, it is released once. So the histories of the runs are
orderly, and what is known about the runs is right at every moment.
-/

namespace PushButton

variable {σ : Type}

/-! ## Observers that never fail -/

/-- An observer that never fails. -/
def Listener.NeverFails (l : Listener) : Prop :=
  ∀ field s past, (l.react field s past).failure = none

/-- Such an observer does not fail when lines and images are taken away either. -/
theorem Listener.NeverFails.not_failsAtClearing {l : Listener} (h : l.NeverFails) :
    ¬ l.FailsAtClearing := fun ⟨field, s, past, _, _, _, hfails⟩ => hfails (h field s past)

/-- A world in which no observer ever fails. -/
def World.IsCalm (w : World σ) : Prop := ∀ l ∈ w.listeners, l.NeverFails

/-- A world stays calm when no observer comes. -/
theorem World.IsCalm.of_sublist {w w' : World σ} (h : w.IsCalm)
    (hsub : w'.listeners.Sublist w.listeners) : w'.IsCalm := fun l hl => h l (hsub.subset hl)

namespace Act

/-- Telling all observers succeeds in a calm world. -/
theorem exists_exec_notify (field : Field) {w : World σ} (hcalm : w.IsCalm) :
    ∃ w', (notify field).exec w = (.ok ⟨⟩, w') := by
  cases hexec : (notify field).exec w with
  | mk res w' =>
    cases res with
    | ok _ => exact ⟨w', rfl⟩
    | error f =>
      obtain ⟨l, hl, past, hfails⟩ := exists_of_exec_notify_error hexec
      cases (hcalm l hl field w.surface past).symm.trans hfails

/-- Taking lines and images away succeeds in a calm world. -/
theorem exists_exec_clear {w : World σ} (hcalm : w.IsCalm) :
    ∃ w', clear.exec w = (.ok ⟨⟩, w') := by
  have hcleared : World.IsCalm { w with surface := w.surface.cleared } := hcalm
  obtain ⟨w₁, houtput⟩ := exists_exec_notify .output hcleared
  have hquiet := quiet_notify .output { w with surface := w.surface.cleared }
  rw [houtput] at hquiet
  obtain ⟨w₂, himages⟩ := exists_exec_notify .images (hcleared.of_sublist hquiet.listeners)
  refine ⟨w₂, ?_⟩
  unfold clear change
  simp only [exec_bind, exec_modify]
  rw [houtput]
  exact himages

end Act

/-- A run begins in a calm world. -/
theorem Run.exists_exec_begin (r : Run) {w : World σ} (hcalm : w.IsCalm) :
    ∃ r' w', r.begin.exec w = (.ok r', w') := by
  unfold begin log
  simp only [Act.exec_bind, Act.exec_modify, Act.exec_get, Act.exec_log]
  generalize hw₁ : World.after _ [_] = w₁
  have hcalm₁ : w₁.IsCalm := hw₁ ▸ hcalm
  obtain ⟨w₂, hclear⟩ := Act.exists_exec_clear hcalm₁
  rw [hclear]
  exact ⟨_, _, rfl⟩

/-! ## Orderly histories -/

/-- A list of deeds and the runs fit together: the list is orderly, runs that are fresh have not
begun, and the runs under way are those that are active. -/
structure Fits (ds : List (Nat × Deed)) (runs : List StartedRun) : Prop where
  /-- The list is orderly. -/
  orderly : Orderly ds
  /-- A fresh run has not begun, and all its actions are left. -/
  fresh : ∀ k s, runs[k]? = some s → s.run.phase = .fresh →
    k ∉ begun ds ∧ s.run.remaining = s.actions
  /-- The runs under way are the active ones. -/
  underWay : ∀ k, k ∈ underWay ds ↔ ∃ s, runs[k]? = some s ∧ s.run.phase.isActive = true
  /-- The runs that have begun were started and have something to do. -/
  begun : ∀ k ∈ begun ds, ∃ s, runs[k]? = some s ∧ s.actions ≠ []

/-- In a calm world the deeds of a history fit together with its runs. -/
theorem History.fits {h : Host σ} {w₀ : World σ} {t : Traffic σ} {ds : List (Nat × Deed)}
    (hist : History h ⟨w₀, []⟩ ds t) (hcalm : w₀.IsCalm) : Fits ds t.runs := by
  obtain ⟨-, hshows⟩ := hist.shows_runs
  refine ⟨hist.orderly, fun k s hs hph => ?_, fun k => ⟨fun hk => ?_, ?_⟩, fun k hk => ?_⟩
  · rw [mem_begun_iff, (hshows k s hs).suits.eq_nil hph]
    exact ⟨nofun, (hshows k s hs).fresh hph⟩
  · obtain ⟨s, hs, hactive | hfailed⟩ := hist.mem_underWay.mp hk
    · exact ⟨s, hs, hactive⟩
    · obtain ⟨l, hl, hfails⟩ := (hshows k s hs).suits.exists_failing hfailed
      exact ((hcalm l hl).not_failsAtClearing hfails).elim
  · rintro ⟨s, hs, hactive⟩
    exact hist.mem_underWay.mpr ⟨s, hs, .inl hactive⟩
  · have hbegun := mem_begun_iff.mp hk
    obtain ⟨s, hs, hshows⟩ := hist.exists_shows (List.ne_nil_of_mem hbegun)
    exact ⟨s, hs, hshows.begun hbegun⟩

/-- There is at least one run under way when the runs are said to be running. -/
theorem Sequencer.status_eq_running (s : Sequencer) : s.status = "running" ↔ 0 < s.active := by
  have hne : ("idle" : Text) ≠ "running" := by decide
  unfold status isRunning
  by_cases hactive : 0 < s.active
  · simp [hactive]
  · simp [hactive, hne]

/-- The observer that prints the lines never fails. -/
theorem Streaming.neverFails_listener : Streaming.listener.NeverFails := by
  intro field s past
  cases field with
  | output | images | scale | color | disabled => rfl

/-- A run that is given up is not under way any more. -/
theorem History.notMem_underWay_of_isOver {h : Host σ} {w₀ : World σ} {t : Traffic σ}
    {ds : List (Nat × Deed)} (hist : History h ⟨w₀, []⟩ ds t) (hcalm : w₀.IsCalm) {k : Nat}
    (hover : t.IsOver h k) : k ∉ PushButton.underWay ds := by
  obtain ⟨s, hs, hended⟩ := hover.ended
  intro hk
  obtain ⟨s', hs', hactive⟩ := ((hist.fits hcalm).underWay k).mp hk
  obtain rfl := Option.some.inj (hs.symm.trans hs')
  rw [hended] at hactive
  cases hactive

/-- **What is known about the runs is right.** Whatever is done with any number of runs has a
history, whatever the host replies. At every moment of a history in a calm world, as many runs were
counted as have begun, each of them once and with something to do; as many count as active as have
begun and not ended, which are those in the middle of their course; and the current position is the
one that was taken up last since no run was under way, so that there is none when no run is. A run
that is cancelled or closed at such a moment is over: it has ended and is not under way any more,
and nothing changes when it goes on or is given up again. -/
theorem Traffic.keeps_account (h : Host σ) (w₀ : World σ) (ms : Int) (hcalm : w₀.IsCalm) :
    (∀ turns, ∃ ds, History h ⟨{ w₀ with sequencer := .paced ms }, []⟩ ds
      (Traffic.takeAll h ⟨{ w₀ with sequencer := .paced ms }, []⟩ turns)) ∧
    ∀ ds t, History h ⟨{ w₀ with sequencer := .paced ms }, []⟩ ds t →
      IsRight ds t.world.sequencer ∧
      (begun ds).Nodup ∧
      (∀ k ∈ begun ds, ∃ s, t.runs[k]? = some s ∧ s.actions ≠ []) ∧
      (∀ k, k ∈ underWay ds ↔ ∃ s, t.runs[k]? = some s ∧ s.run.phase.isActive = true) ∧
      0 ≤ t.world.sequencer.active ∧
      (t.world.sequencer.status = "running" ↔ 0 < t.world.sequencer.active) ∧
      (t.world.sequencer.active = 0 → t.world.sequencer.current = none) ∧
      ∀ k s turn, t.runs[k]? = some s → turn = .cancel k ∨ turn = .close k →
        (t.take h turn).IsOver h k ∧
        ∃ ds', History h ⟨{ w₀ with sequencer := .paced ms }, []⟩ (ds ++ ds') (t.take h turn) ∧
          k ∉ underWay (ds ++ ds') := by
  refine ⟨History.exists_takeAll h nofun, fun ds t hist => ?_⟩
  have hcalm' : World.IsCalm { w₀ with sequencer := .paced ms } := hcalm
  have hfits := hist.fits hcalm'
  have hright : IsRight ds t.world.sequencer := by
    rw [(hist.follows nofun).sequencer]
    exact hfits.orderly.isRight ms
  refine ⟨hright, hfits.orderly.nodup_begun, hfits.begun, hfits.underWay, ?_,
    t.world.sequencer.status_eq_running, fun hidle => ?_, fun k s turn hs hturn => ?_⟩
  · rw [hright.active]
    exact Int.natCast_nonneg _
  · refine hright.current.eq_none (List.length_eq_zero_iff.mp ?_)
    have hactive := hright.active
    omega
  · have hover : (t.take h turn).IsOver h k := isOver_take hs hturn
    obtain ⟨ds', hist'⟩ := hist.take nofun turn
    exact ⟨hover, ds', hist', hist'.notMem_underWay_of_isOver hcalm' hover⟩

/-- While a dialog waits, the run that has asked for it is active, also when another run has been
driven to its end in the meantime. When it is cancelled no run is active, and it cannot go on. -/
theorem Traffic.keeps_account_of_dialog :
    let alert : Workflow := ⟨"Go", [⟨"a1", .alert, none⟩]⟩
    let line : Workflow := ⟨"Go", [⟨"a1", .showText, none⟩]⟩
    let w : World HostScript := {
      surface := .fresh, listeners := [Streaming.listener], shelf := ⟨.memory [], ⟨[], [], []⟩⟩
      host := { suspended := ["alert"] }, sequencer := .paced 0 }
    let t := Traffic.takeAll HostScript.host ⟨w, []⟩
      [.start (some alert) false, .start (some line) false, .resume 0, .resume 1]
    let t' := t.take HostScript.host (.cancel 0)
    w.IsCalm ∧ (∃ ds, History HostScript.host ⟨w, []⟩ ds t ∧
      t.world.sequencer.status = "running" ∧ (underWay ds).length = 1 ∧ (begun ds).length = 2) ∧
      (∃ ds, History HostScript.host ⟨w, []⟩ ds t' ∧ 0 ∉ underWay ds) ∧
      t'.take HostScript.host (.resume 0) = t' ∧ t'.world.sequencer.status = "idle" := by
  intro alert line w t t'
  have hcalm : w.IsCalm := by
    intro l hl
    rw [List.mem_singleton.mp hl]
    exact Streaming.neverFails_listener
  obtain ⟨hall, hkept⟩ := Traffic.keeps_account HostScript.host w 0 hcalm
  obtain ⟨ds, hist⟩ := hall
    [.start (some alert) false, .start (some line) false, .resume 0, .resume 1]
  obtain ⟨hright, -, -, -, -, hstatus, -, hgivenUp⟩ := hkept ds t hist
  have hactive : t.world.sequencer.active = 1 := by decide
  have hstarted : t.world.sequencer.started = 2 := by decide
  obtain ⟨s, hs⟩ : ∃ s, t.runs[0]? = some s := ⟨_, rfl⟩
  obtain ⟨hover, ds', hist', hout⟩ := hgivenUp 0 s (.cancel 0) hs (.inl rfl)
  refine ⟨hcalm, ⟨ds, hist, hstatus.mpr (by omega), ?_, ?_⟩, ⟨_, hist', hout⟩, hover.resume,
    by decide⟩
  · have := hright.active
    omega
  · rw [← hright.started, hstarted]

end PushButton
