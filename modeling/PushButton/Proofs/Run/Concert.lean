import PushButton.Proofs.Run.Course
import PushButton.Proofs.Run.Likeness

/-!
# Runs in worlds that are like each other

A likeness of worlds is a concert when runs go on alike in it too: the same time has passed, the
next run id and the waiting times are the same, and nothing that a run does to these spoils the
likeness. The hosts of the two worlds may be different ones, and so may the states that they have;
they only have to meet the requests of the actions alike.
-/

namespace PushButton

variable {σ τ α β : Type}

/-- A run begins: it is counted, and gets a run id. -/
def World.begun (w : World σ) : World σ :=
  { w with
    runIds := w.runIds + 1
    sequencer := { w.sequencer with
      started := w.sequencer.started + 1, active := w.sequencer.active + 1 } }

/-- The action at a position is taken up. -/
def World.reached (w : World σ) (i : Nat) : World σ :=
  { w with sequencer := { w.sequencer with current := some i } }

/-- A likeness of worlds in which runs go on alike. -/
class World.Concert (R : World σ → World τ → Prop) : Prop extends World.Likeness R where
  /-- As much time has passed. -/
  clock {w : World σ} {w' : World τ} : R w w' → w.clock = w'.clock
  /-- As many run ids were given. -/
  runIds {w : World σ} {w' : World τ} : R w w' → w.runIds = w'.runIds
  /-- The waiting times are the same. -/
  pacing {w : World σ} {w' : World τ} : R w w' → w.sequencer.pacing = w'.sequencer.pacing
  /-- Milliseconds pass. -/
  elapsed {w : World σ} {w' : World τ} (ms : Nat) : R w w' →
    R { w with clock := w.clock + ms } { w' with clock := w'.clock + ms }
  /-- A run begins. -/
  begun {w : World σ} {w' : World τ} : R w w' → R w.begun w'.begun
  /-- An action is taken up. -/
  reached {w : World σ} {w' : World τ} (i : Nat) : R w w' → R (w.reached i) (w'.reached i)
  /-- A run ends. -/
  released {w : World σ} {w' : World τ} : R w w' → R w.released w'.released

variable {R : World σ → World τ → Prop} [World.Concert R]

/-- Milliseconds pass in both worlds. -/
theorem Act.agreesUpTo_sleep (ms : Nat) :
    AgreesUpTo R (sleep ms : Act σ Unit) (sleep ms) := by
  unfold sleep
  split
  · refine (AgreesUpTo.modify fun w w' hw => World.Concert.elapsed ms hw).bind fun _ => ?_
    exact fun _ _ hw => ⟨rfl, World.Likeness.after [.slept ms] hw⟩
  · exact AgreesUpTo.pure _

namespace Run

variable {h : Host σ} {h' : Host τ} {p : Pauses}

/-! ## Steps of a run -/

/-- A run goes on behind an action. -/
theorem agreesUpTo_applied (r : Run) (a : Action) (e : Effect) {onward : Act σ (Run × Progress)}
    {onward' : Act τ (Run × Progress)} (honward : Act.AgreesUpTo R onward onward') :
    Act.AgreesUpTo R (applied p r a e onward) (applied p r a e onward') := by
  unfold applied
  cases e with
  | reload =>
    refine (Act.agreesUpTo_log _ _ _ _).bind fun _ => Act.agreesUpTo_remake.bind fun _ => ?_
    split
    · exact Act.AgreesUpTo.pure _
    · exact Act.AgreesUpTo.pure _
  | proceed =>
    dsimp only
    split
    · exact Act.AgreesUpTo.pure _
    · exact honward

/-- A run begins its next action. -/
theorem agreesUpTo_step (r : Run) {a : Action} (hmet : a.IsMetAlike h h' R)
    {onward : Act σ (Run × Progress)} {onward' : Act τ (Run × Progress)}
    (honward : Act.AgreesUpTo R onward onward') :
    Act.AgreesUpTo R (step h p r a onward) (step h' p r a onward') := by
  unfold step
  refine (Act.AgreesUpTo.modify fun w w' hw => World.Concert.reached r.index hw).bind fun _ => ?_
  refine (Act.agreesUpTo_log _ _ _ _).bind fun _ => ?_
  refine (hmet.agreesUpTo_start p.requests fun _ w w' hw => World.Concert.clock hw).bind fun b => ?_
  cases b with
  | waiting q since => exact Act.AgreesUpTo.pure _
  | applied e => exact agreesUpTo_applied r a e honward

/-- A run has applied all its actions. -/
theorem agreesUpTo_finish (r : Run) :
    Act.AgreesUpTo R (r.finish : Act σ (Run × Progress)) r.finish := by
  refine Act.AgreesUpTo.get_bind fun w w' hw => ?_
  rw [World.Concert.clock hw, World.Likeness.surface hw]
  exact (Act.agreesUpTo_log _ _ _ _).bind (fun _ => Act.AgreesUpTo.pure _) w w' hw

/-- A run goes on with the actions that are left. The induction is on these actions. -/
theorem agreesUpTo_steps (r : Run) {actions : List Action}
    (hmet : ∀ a ∈ actions, a.IsMetAlike h h' R) :
    Act.AgreesUpTo R (steps h p r actions) (steps h' p r actions) := by
  induction actions generalizing r with
  | nil => exact agreesUpTo_finish r
  | cons a rest ih =>
    unfold steps
    refine Act.AgreesUpTo.get_bind fun w w' hw => ?_
    rw [World.Concert.pacing hw]
    refine (Act.agreesUpTo_sleep _).bind (fun _ => ?_) w w' hw
    split
    · exact Act.AgreesUpTo.pure _
    · exact agreesUpTo_step r (hmet a (by simp)) (ih r.next fun b hb => hmet b (by simp [hb]))

/-- A run begins. -/
theorem agreesUpTo_begin (r : Run) : Act.AgreesUpTo R (r.begin : Act σ Run) r.begin := by
  unfold begin
  refine (Act.AgreesUpTo.modify fun w w' hw => World.Concert.begun hw).bind fun _ => ?_
  refine Act.AgreesUpTo.get_bind fun w w' hw => ?_
  rw [World.Concert.runIds hw, World.Concert.clock hw, World.Concert.pacing hw]
  refine (Act.agreesUpTo_log _ _ _ _).bind (fun _ => ?_) w w' hw
  exact Act.agreesUpTo_clear.bind fun _ => Act.AgreesUpTo.pure _

/-! ## What is done with a run -/

/-- Something is done in worlds that are like each other with the same outcome, and they stay like
each other. -/
def GoesAlike (R : World σ → World τ → Prop) (f : StateM (World σ) α) (f' : StateM (World τ) α) :
    Prop :=
  ∀ w w', R w w' → (f.run w).1 = (f'.run w').1 ∧ R (f.run w).2 (f'.run w').2

omit [World.Concert R] in
/-- A value is the same outcome. -/
theorem GoesAlike.pure (x : α) :
    GoesAlike R (pure x : StateM (World σ) α) (pure x : StateM (World τ) α) :=
  fun _ _ hw => ⟨rfl, hw⟩

omit [World.Concert R] in
/-- The outcome is made into something else. -/
theorem GoesAlike.map {f : StateM (World σ) α} {f' : StateM (World τ) α} (hf : GoesAlike R f f')
    (g : α → β) : GoesAlike R (g <$> f) (g <$> f') := by
  intro w w' hw
  obtain ⟨hout, hworlds⟩ := hf w w' hw
  rw [StateT.run_map, StateT.run_map]
  exact ⟨congrArg g hout, hworlds⟩

/-- Parts of an active run that agree have the same outcome. -/
theorem goesAlike_within (r : Run) {act : Act σ (Run × Progress)} {act' : Act τ (Run × Progress)}
    (hact : Act.AgreesUpTo R act act') : GoesAlike R (within r act) (within r act') := by
  intro w w' hw
  obtain ⟨res, u, u', hu, hu', hlike⟩ := hact.exists_exec hw
  rw [run_within, run_within, hu, hu']
  cases res with
  | error f => exact ⟨rfl, World.Concert.released hlike⟩
  | ok out =>
    refine ⟨rfl, ?_⟩
    unfold outcome
    dsimp only
    split
    · exact World.Concert.released hlike
    · exact hlike

/-- A run goes on to the next place where it may be left, when the requests of its actions are met
alike, and so is the one for which it waits. -/
theorem goesAlike_advance (p : Pauses) {r : Run}
    (hmet : r.phase ≠ .ended → ∀ a ∈ r.remaining, a.IsMetAlike h h' R)
    (hsettle : ∀ q since a rest, r.phase = .asking q since → r.remaining = a :: rest →
      Act.AgreesUpTo R (a.settle h q since) (a.settle h' q since)) :
    GoesAlike R (advance h p r) (advance h' p r) := by
  by_cases hended : r.phase = .ended
  · unfold advance
    rw [hended]
    exact GoesAlike.pure _
  replace hmet := hmet hended
  have hsteps (r' : Run) {rest : List Action} (hrest : ∀ a ∈ rest, a ∈ r.remaining) :
      Act.AgreesUpTo R (steps h p r' rest) (steps h' p r' rest) :=
    agreesUpTo_steps r' fun a ha => hmet a (hrest a ha)
  cases hph : r.phase with
  | fresh =>
    intro w w' hw
    by_cases hrem : r.remaining = []
    · rw [run_advance_idle hph hrem, run_advance_idle hph hrem, Act.exec_log, Act.exec_log]
      exact ⟨rfl, World.Likeness.after _ hw⟩
    · obtain ⟨res, u, u', hu, hu', hlike⟩ := (agreesUpTo_begin r).exists_exec hw
      rw [run_advance_fresh hph hrem, run_advance_fresh hph hrem, hu, hu']
      cases res with
      | error f => exact ⟨rfl, hlike⟩
      | ok r' =>
        have hwithin := goesAlike_within r' (hsteps r' fun a ha => ha) u u' hlike
        rw [run_within, run_within] at hwithin
        exact hwithin
  | pacing =>
    unfold advance
    rw [hph]
    cases hrem : r.remaining with
    | nil => exact GoesAlike.pure _
    | cons a rest =>
      refine goesAlike_within r (agreesUpTo_step r (hmet a (by simp [hrem])) ?_)
      exact hsteps r.next fun b hb => by simp [hrem, hb]
  | asking q since =>
    unfold advance
    rw [hph]
    cases hrem : r.remaining with
    | nil => exact GoesAlike.pure _
    | cons a rest =>
      refine goesAlike_within r ((hsettle q since a rest hph hrem).bind fun e => ?_)
      exact agreesUpTo_applied r a e (hsteps r.next fun b hb => by simp [hrem, hb])
  | between =>
    unfold advance
    rw [hph]
    exact goesAlike_within r (hsteps r fun a ha => ha)
  | reloaded =>
    unfold advance
    rw [hph]
    exact goesAlike_within r (Act.AgreesUpTo.pure _)
  | ended => exact (hended hph).elim

/-- A run is cancelled, when the request for which it waits is given up alike. -/
theorem goesAlike_cancel {r : Run} (habandon : ∀ q since, r.phase = .asking q since →
    Act.AgreesUpTo R (Act.abandon h q) (Act.abandon h' q)) :
    GoesAlike R (cancel h r) (cancel h' r) := by
  unfold cancel
  cases hph : r.phase with
  | pacing => exact goesAlike_within r (Act.AgreesUpTo.throw _)
  | asking q since =>
    cases r.remaining with
    | nil => exact GoesAlike.pure _
    | cons a rest =>
      refine goesAlike_within r (Action.agreesUpTo_timed a (.inl rfl) ?_)
      exact (habandon q since hph).bind fun _ => Act.AgreesUpTo.throw _
  | fresh | between | reloaded | ended => exact GoesAlike.pure _

/-- A run is closed. -/
theorem goesAlike_close (r : Run) : GoesAlike R r.close r.close := by
  have hclose : GoesAlike R
      ((·.1) <$> within r (pure ({ r with phase := .ended }, .done)) : StateM (World σ) Run)
      ((·.1) <$> within r (pure ({ r with phase := .ended }, .done)) : StateM (World τ) Run) :=
    (goesAlike_within r (Act.AgreesUpTo.pure _)).map Prod.fst
  unfold close
  cases r.phase with
  | between | reloaded => exact hclose
  | fresh | pacing | asking q since | ended => exact GoesAlike.pure _

/-- A workflow is run as a whole, when the requests of its actions are met alike. -/
theorem agreesUpTo_complete_of_isMetAlike {workflow : Option Workflow}
    (hmet : ∀ a ∈ (ofWorkflow workflow).remaining, a.IsMetAlike h h' R) :
    Act.AgreesUpTo R (complete h workflow) (complete h' workflow) := by
  intro w w' hw
  have hfresh (q : Request) (since : Nat) : (ofWorkflow workflow).phase ≠ .asking q since := by
    rw [phase_ofWorkflow]
    nofun
  obtain ⟨hout, hworlds⟩ := goesAlike_advance {} (fun _ => hmet)
    (fun q since _ _ hasking _ => (hfresh q since hasking).elim) w w' hw
  rw [exec_complete, exec_complete]
  generalize (advance h {} (ofWorkflow workflow)).run w = out at hout hworlds ⊢
  generalize (advance h' {} (ofWorkflow workflow)).run w' = out' at hout hworlds ⊢
  obtain ⟨⟨r, progress⟩, u⟩ := out
  obtain ⟨⟨r', progress'⟩, u'⟩ := out'
  obtain ⟨rfl, rfl⟩ := Prod.mk.inj hout
  cases progress with
  | failed f => exact ⟨rfl, hworlds⟩
  | sleeping | asking | stepped | done => exact ⟨rfl, hworlds⟩

end Run

end PushButton
