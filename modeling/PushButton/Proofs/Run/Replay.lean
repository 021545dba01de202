import Mathlib.Data.List.Forall2
import PushButton.Host.Scripted
import PushButton.Proofs.Run.Alike
import PushButton.Proofs.Run.Course
import PushButton.Run.Streaming

/-!
# A run replays its actions

The records that a run makes have no influence on its course, as long as no observer looks at
records: it is like a replay of the actions on their own. So wherever a run is left after an action,
the world is like the one that a complete run of the actions so far leaves.
-/

namespace PushButton

variable {σ : Type}

/-! ## Replays in worlds that are alike -/

/-- An action is applied behind a waiting time, and the surface that it has reloaded is made anew.
-/
def Action.play (h : Host σ) (ms : Nat) (a : Action) : Act σ Effect := do
  Act.sleep ms
  let e ← a.apply h
  if e = .reload then Act.remake
  pure e

/-- Two replays have the same steps and the same result, in worlds that are alike. -/
structure Replay.IsLike (x y : Replay σ) : Prop where
  /-- The steps are the same. -/
  steps : List.Forall₂ (fun s s' => s.1 = s'.1 ∧ s.2.Alike s'.2) x.steps y.steps
  /-- The result is the same. -/
  result : x.result = y.result
  /-- The worlds at the end are alike. -/
  world : x.world.Alike y.world

/-- A step of a replay is a step of one that is like it. -/
theorem Replay.IsLike.exists_step {x y : Replay σ} (hlike : x.IsLike y) {j : Nat} {p : Progress}
    {u : World σ} (hj : x.steps[j]? = some (p, u)) :
    ∃ v, y.steps[j]? = some (p, v) ∧ u.Alike v := by
  obtain ⟨hlt, hget⟩ := List.getElem?_eq_some_iff.mp hj
  have hlt' : j < y.steps.length := hlike.steps.length_eq ▸ hlt
  obtain ⟨hprogress, hworlds⟩ := hlike.steps.get hlt hlt'
  rw [List.get_eq_getElem, List.get_eq_getElem, hget] at hprogress hworlds
  refine ⟨y.steps[j].2, ?_, hworlds⟩
  rw [List.getElem?_eq_getElem hlt']
  exact congrArg some (Prod.ext hprogress.symm rfl)

/-- Replays are like each other when the actions are played in ways that agree. -/
theorem isLike_replay {play play' : Nat → Action → Act σ Effect}
    (hplay : ∀ i a, Act.Agrees (play i a) (play' i a)) (actions : List Action) {i : Nat}
    {u w : World σ} (hw : u.Alike w) :
    (replay play i actions u).IsLike (replay play' i actions w) := by
  induction actions generalizing i u w with
  | nil => exact ⟨.nil, rfl, hw⟩
  | cons a rest ih =>
    obtain ⟨res, u', w', hu, hw₁, hlike⟩ := (hplay i a u w hw).exists_exec
    unfold replay
    rw [hu, hw₁]
    cases res with
    | error f => exact ⟨.nil, rfl, hlike⟩
    | ok e =>
      cases e with
      | reload => exact ⟨.cons ⟨rfl, hlike⟩ .nil, rfl, hlike⟩
      | proceed =>
        have hlater := ih (i := i + 1) hlike
        exact ⟨.cons ⟨rfl, hlike⟩ hlater.steps, hlater.result, hlater.world⟩

namespace Run

variable {h : Host σ}

/-- Taking up an action makes no difference. -/
theorem agrees_announce (r : Run) (a : Action) :
    Act.Agrees (r.announce a : Act σ Unit) (pure ()) := by
  intro w w' hw
  have hcurrent : World.Alike
      { w with sequencer := { w.sequencer with current := some r.index } } w' :=
    hw.with_sequencer rfl
  exact ⟨rfl, hcurrent.after_record _⟩

/-- Making the surface anew because of an action is making it anew. -/
theorem agrees_remount (r : Run) (a : Action) : Act.Agrees (r.remount a : Act σ Unit) Act.remake :=
  Act.Agrees.skip (Act.agrees_log _ _ _ _) Act.agrees_remake

/-- The records of a run make no difference to how an action is played. -/
theorem agrees_play (r : Run) (ms : Nat) (a : Action) :
    Act.Agrees (r.play h ms a) (a.play h ms) := by
  refine (Act.agrees_sleep ms).bind fun _ => (agrees_announce r a).skip ?_
  refine (Action.agrees_apply h a).bind fun e => ?_
  cases e with
  | proceed => exact Act.Agrees.pure _
  | reload => exact (agrees_remount r a).bind fun _ => Act.Agrees.pure _

end Run

/-! ## The course of a run without its records -/

/-- Lines and images are taken away, and then actions are replayed. -/
def replayAnew (h : Host σ) (ms : Nat) (actions : List Action) (w : World σ) : Replay σ :=
  match Act.clear.exec w with
  | (.error f, w') => ⟨[], .error f, w'⟩
  | (.ok _, w') => replay (fun _ a => a.play h ms) 0 actions w'

/-- At a step of a replay anew the world is the one in which a replay anew of the actions so far
ends, without a failure. -/
theorem replayAnew_take {h : Host σ} {ms j : Nat} {actions : List Action} {w : World σ}
    {x : Progress × World σ} (hx : (replayAnew h ms actions w).steps[j]? = some x) :
    (∃ e, (replayAnew h ms (actions.take (j + 1)) w).result = .ok e) ∧
      (replayAnew h ms (actions.take (j + 1)) w).world = x.2 := by
  unfold replayAnew at hx ⊢
  split at hx
  · cases hx
  · exact replay_take hx

namespace Run

variable {h : Host σ}

/-- Finishing makes a record. -/
theorem exec_finish (r : Run) (w : World σ) :
    ∃ record, (r.finish.exec w).2 = w.after [.logged record] := ⟨_, rfl⟩

/-- What comes of a run that has actions left is like a replay of them. -/
theorem isLike_remainder (ms : Nat) {r : Run} {i : Nat} (hindex : r.index = i)
    (actions : List Action) {u w : World σ} (hw : u.Alike w) :
    (remainder h ms r actions u).IsLike (replay (fun _ a => a.play h ms) i actions w) := by
  subst hindex
  have hplay (i : Nat) (a : Action) :
      Act.Agrees (({ r with index := i } : Run).play h ms a) (a.play h ms) := agrees_play _ ms a
  have hlike := isLike_replay hplay actions (i := r.index) hw
  refine ⟨hlike.steps, hlike.result, ?_⟩
  unfold remainder closing
  dsimp only
  split
  · obtain ⟨record, hfinish⟩ := r.exec_finish
      (replay (fun i a => ({ r with index := i } : Run).play h ms a) r.index actions u).world
    rw [hfinish]
    exact (hlike.world.after_record record).with_sequencer rfl
  · exact hlike.world.with_sequencer rfl
  · exact hlike.world.with_sequencer rfl

/-- Beginning a run is taking lines and images away. -/
theorem begin_eq_clear (r : Run) {u w : World σ} (hw : u.Alike w) :
    ∃ res u' w' id since, Act.clear.exec w = (res, w') ∧ u'.Alike w' ∧
      r.begin.exec u = (res.map fun _ => { r with id := id, since := since }, u') := by
  unfold begin log
  simp only [Act.exec_bind, Act.exec_modify, Act.exec_get, Act.exec_log]
  generalize hu₁ : World.after _ [_] = u₁
  have hw₁ : u₁.Alike w := by
    rw [← hu₁]
    have hbegun : World.Alike { u with
        runIds := u.runIds + 1
        sequencer := { u.sequencer with
          started := u.sequencer.started + 1, active := u.sequencer.active + 1 } } w :=
      { hw with pacing := hw.pacing }
    exact hbegun.after_record _
  obtain ⟨res, u', w', hclear, hclear', hworlds⟩ := (Act.agrees_clear u₁ w hw₁).exists_exec
  rw [hclear, hclear']
  cases res with
  | error f => exact ⟨.error f, u', w', [], 0, rfl, hworlds, rfl⟩
  | ok _ => exact ⟨.ok (), u', w', _, _, rfl, hworlds, rfl⟩

/-- The course of a run that has done nothing yet is like a replay anew of its actions. -/
theorem isLike_course (ms : Nat) {r : Run} (hindex : r.index = 0) {w : World σ} (hw : w.IsBlind) :
    (r.course h ms w).IsLike (replayAnew h ms r.remaining w) := by
  obtain ⟨res, u', w', id, since, hclear, hlike, hbegin⟩ := r.begin_eq_clear (.refl hw)
  unfold course replayAnew
  rw [hbegin, hclear]
  cases res with
  | error f => exact ⟨.nil, rfl, hlike⟩
  | ok _ => exact isLike_remainder (r := { r with id := id, since := since }) ms hindex _ hlike

end Run

/-- The world in which some milliseconds, and none if there are fewer, pass in front of every
action. -/
def World.withPacing (w : World σ) (ms : Int) : World σ :=
  { w with sequencer := { w.sequencer with pacing := (Sequencer.paced ms).pacing } }

/-- The workflow with so many of its first actions. -/
def Workflow.upTo (x : Workflow) (n : Nat) : Workflow := { x with actions := x.actions.take n }

/-- The observer that prints the lines does not look at records. -/
theorem Streaming.ignoresRecords_listener : Streaming.listener.IgnoresRecords :=
  Streaming.react_filter fun _ _ _ _ => rfl

/-- **A run replays its actions in order.** A run with nothing to do makes a record and changes
nothing else. Any other run takes its course: it begins, which takes lines and images away, and then
plays its actions in order, each behind the waiting time, up to the first reload, for which the
surface is made anew, or the first failure. When it is left after every action, it reports a step
for each action that was applied, and its end, in the very same worlds. As long as no observer looks
at records, the course is like a replay of the actions on their own, and at each of its steps the
world is like the one that a complete run of the actions so far leaves. -/
theorem Run.replays_in_order (h : Host σ) (ms : Int) (w₀ : World σ) :
    (∀ workflow, (ofWorkflow workflow).remaining = [] → ∀ w : World σ,
      (complete h workflow).exec w = (.ok (), w.after [.logged idleRecord]) ∧
      reportsOf h workflow w = [(.done, w.after [.logged idleRecord])]) ∧
    ∀ x : Workflow, x.actions ≠ [] →
      let w := w₀.withPacing ms
      let y := (ofWorkflow (some x)).course h ms.toNat w
      (complete h (some x)).exec w = (y.result.map fun _ => (), y.world) ∧
      reportsOf h (some x) w = y.reports ∧
      (∀ (j : Nat) progress v, y.steps[j]? = some (progress, v) →
        ∃ a e, x.actions[j]? = some a ∧ progress = .stepped j a.id e) ∧
      (w₀.IsBlind → y.IsLike (replayAnew h ms.toNat x.actions w) ∧
        ∀ (j : Nat) progress v, y.steps[j]? = some (progress, v) → ∃ u,
          (complete h (some (x.upTo (j + 1)))).exec w = (.ok (), u) ∧ v.Alike u) := by
  refine ⟨fun workflow hnothing w => ⟨?_, ?_⟩, fun x hactions => ?_⟩
  · exact complete_of_nothing h hnothing w
  · unfold reportsOf
    rw [iterate, run_advance_idle (phase_ofWorkflow workflow) hnothing]
    rfl
  intro w y
  have hms : w.sequencer.pacing = ms.toNat := rfl
  refine ⟨complete_eq_course hms hactions, ?_, ?_, fun hblind => ?_⟩
  · exact iterate_eq_course hms rfl hactions (Nat.le_refl _)
  · intro j progress v hj
    exact course_steps rfl hj
  have hw : w.IsBlind := hblind
  have hlike : y.IsLike (replayAnew h ms.toNat x.actions w) := isLike_course ms.toNat rfl hw
  refine ⟨hlike, fun j progress v hj => ?_⟩
  obtain ⟨v', hv', hworlds⟩ := hlike.exists_step hj
  obtain ⟨⟨e, hresult⟩, hworld⟩ := replayAnew_take hv'
  have htake : (x.upTo (j + 1)).actions ≠ [] := by
    unfold Workflow.upTo
    simp [hactions]
  have hshort := isLike_course (h := h) ms.toNat (r := ofWorkflow (some (x.upTo (j + 1)))) rfl hw
  refine ⟨((ofWorkflow (some (x.upTo (j + 1)))).course h ms.toNat w).world, ?_, ?_⟩
  · rw [complete_eq_course hms htake, hshort.result.trans hresult]
    rfl
  · obtain rfl : _ = v' := hworld
    exact hworlds.trans hshort.world.symm

/-- A run of two actions whose lines are printed, with a negative waiting time: behind the second
one the world is like the one that a complete run leaves. -/
theorem Run.replays_line_and_dialog :
    let x : Workflow := ⟨"Go", [⟨"a1", .showText, some [("text", "Hi")]⟩, ⟨"a2", .alert, none⟩]⟩
    let w : World HostScript := {
      surface := .fresh, listeners := [Streaming.listener], shelf := ⟨.memory [], ⟨[], [], []⟩⟩
      host := {}, sequencer := .paced 0 }
    w.IsBlind ∧ ∃ v u,
      ((ofWorkflow (some x)).course HostScript.host 0 (w.withPacing (-5))).steps[1]? =
        some (.stepped 1 "a2" .proceed, v) ∧
      (complete HostScript.host (some (x.upTo 2))).exec (w.withPacing (-5)) = (.ok (), u) ∧
      v.Alike u := by
  intro x w
  have hblind : w.IsBlind := by
    intro l hl
    rw [List.mem_singleton.mp hl]
    exact Streaming.ignoresRecords_listener
  obtain ⟨-, hreplays⟩ := Run.replays_in_order HostScript.host (-5) w
  obtain ⟨-, -, -, hlike⟩ := hreplays x (by simp [x])
  obtain ⟨-, hsteps⟩ := hlike hblind
  have hsecond :
      ((ofWorkflow (some x)).course HostScript.host 0 (w.withPacing (-5))).steps[1]?.map (·.1) =
        some (.stepped 1 "a2" .proceed) := by decide
  obtain ⟨⟨progress, v⟩, hv, rfl⟩ := Option.map_eq_some_iff.mp hsecond
  obtain ⟨u, hcomplete, hworlds⟩ := hsteps 1 _ v hv
  exact ⟨hblind, v, u, hv, hcomplete, hworlds⟩

end PushButton
