import PushButton.Proofs.Run.Footprint

/-!
# The scenes of runs

A scene is an action of a run between the world in front of it and the world behind it. The scenes
of a run that is left after every action follow from its reports, and runs in a row have the scenes
of each of them. Where nothing stops the runs, every scene goes as its action is applied, and the
host goes through them in the states in which it is left each time.
-/

namespace PushButton

variable {σ : Type}

/-- An action of a run with the world in front of it and the world behind it. -/
structure Scene (σ : Type) where
  /-- The action. -/
  action : Action
  /-- The world in front of it. -/
  before : World σ
  /-- The world behind it. -/
  after : World σ

/-- The scenes of actions in a world, given what is reported about them. -/
def scenesFrom (w : World σ) : List Action → List (Progress × World σ) → List (Scene σ)
  | a :: actions, (.stepped _ _ _, w') :: reports => ⟨a, w, w'⟩ :: scenesFrom w' actions reports
  | _, _ => []

namespace Run

/-- The scenes of a run that is left after every action; the first one is in front of the world in
which the run has begun. -/
def scenes (h : Host σ) (workflow : Option Workflow) (w : World σ) : List (Scene σ) :=
  scenesFrom ((ofWorkflow workflow).begin.exec w).2 (ofWorkflow workflow).remaining
    (reportsOf h workflow w)

/-- The world behind complete runs in a row. -/
def worldAfter (h : Host σ) (workflows : List (Option Workflow)) (w : World σ) : World σ :=
  workflows.foldl (fun w x => ((complete h x).exec w).2) w

/-- The scenes of runs in a row. -/
def scenesOfAll (h : Host σ) : List (Option Workflow) → World σ → List (Scene σ)
  | [], _ => []
  | x :: rest, w => scenes h x w ++ scenesOfAll h rest ((complete h x).exec w).2

end Run

/-! ## How scenes go -/

/-- A scene goes as its action is applied: the host has replied to its request, its text is stored,
and if the run goes on the surface is what its change has made of it. -/
structure Scene.IsPlayed (h : Host σ) (s : Scene σ) : Prop where
  /-- The host has replied. -/
  host : s.after.host = s.action.hostAfter h s.before.host
  /-- Where the run goes on, the text is stored, and the surface is changed. -/
  rest : s.action.effect (s.action.reply? h false s.before.host) = .proceed →
    s.after.shelf = s.action.shelfAfter s.before.shelf ∧
      s.after.surface = (s.action.change? s.before.shelf
        (s.action.reply? h false s.before.host) s.before.draws).elim s.before.surface
          fun c => c.update s.before.surface

/-- A host goes through scenes from one state to another one, and every scene goes as its action is
applied. -/
inductive Host.GoesThrough (h : Host σ) : σ → List (Scene σ) → σ → Prop
  /-- There are no scenes. -/
  | nil (s : σ) : GoesThrough h s [] s
  /-- There is a scene, and there are others behind it. -/
  | cons {x : Scene σ} {rest : List (Scene σ)} {s : σ} : x.IsPlayed h →
      GoesThrough h x.after.host rest s → GoesThrough h x.before.host (x :: rest) s

/-- A host goes through scenes, and then through others. -/
theorem Host.GoesThrough.append {h : Host σ} {xs ys : List (Scene σ)} {s s' s'' : σ}
    (hxs : h.GoesThrough s xs s') (hys : h.GoesThrough s' ys s'') :
    h.GoesThrough s (xs ++ ys) s'' := by
  induction hxs with
  | nil s => exact hys
  | cons hplayed _ ih => exact .cons hplayed (ih hys)

/-- The actions that are applied when nothing stops them: all up to the first one that has reloaded
the surface. -/
def Action.applied (h : Host σ) : List Action → σ → List Action
  | [], _ => []
  | a :: rest, s =>
    match a.effect (a.reply? h false s) with
    | .reload => [a]
    | .proceed => a :: applied h rest (a.hostAfter h s)

namespace Run

variable {h : Host σ} {Q : σ → Prop} {w w' : World σ}

/-- An action that is played is applied when time has passed and records were made. -/
theorem exists_apply_of_play {ms : Nat} {r : Run} {a : Action}
    (hplay : (r.play h ms a).exec w = (.ok .proceed, w')) :
    ∃ clock past sequencer, (a.apply h).exec
      { w with clock := clock, past := past, sequencer := sequencer } = (.ok .proceed, w') := by
  obtain ⟨clock, past, hsleep⟩ : ∃ clock past,
      (Act.sleep ms).exec w = (.ok (), { w with clock := clock, past := past }) := by
    unfold Act.sleep
    split
    · exact ⟨_, _, rfl⟩
    · exact ⟨_, _, rfl⟩
  obtain ⟨past', sequencer, hannounce⟩ : ∃ past' sequencer,
      (r.announce a).exec { w with clock := clock, past := past } =
        (.ok (), { w with clock := clock, past := past', sequencer := sequencer }) :=
    ⟨_, _, rfl⟩
  refine ⟨clock, past', sequencer, ?_⟩
  unfold play at hplay
  simp only [Act.exec_bind, hsleep, hannounce] at hplay
  generalize (a.apply h).exec _ = out at hplay ⊢
  obtain ⟨res, w₁⟩ := out
  cases res with
  | error f => cases hplay
  | ok e =>
    cases e with
    | proceed => exact hplay
    | reload =>
      dsimp only at hplay
      rw [if_pos rfl, Act.exec_bind] at hplay
      split at hplay
      · cases hplay
      · cases hplay

/-- An action that is played changes the storage and the surface as it does when it is applied, if
the run goes on. -/
theorem rest_of_play [h.IsDiscreet] {ms : Nat} {r : Run} {a : Action}
    (hplay : (r.play h ms a).exec w = (.ok .proceed, w')) :
    w'.shelf = a.shelfAfter w.shelf ∧
      w'.surface = (a.change? w.shelf (a.reply? h false w.host) w.draws).elim w.surface
        fun c => c.update w.surface := by
  obtain ⟨clock, past, sequencer, happly⟩ := exists_apply_of_play hplay
  have hshelf := a.shelf_apply h { w with clock := clock, past := past, sequencer := sequencer }
  have hsurface := (a.footprint_apply h
    { w with clock := clock, past := past, sequencer := sequencer }).surface
  rw [happly] at hshelf hsurface
  exact ⟨hshelf, hsurface⟩

/-- A run in a safe world goes through the scenes of its actions, which leave the world safe. The
induction is on the actions. -/
theorem goesThrough_replay [h.IsDiscreet] (hhost : h.Obliges Q) (ms : Nat) (r : Run)
    (actions : List Action) {i : Nat} (hw : w.IsSafe Q) (last : Progress × World σ)
    (hlast : ∀ j id e, last.1 ≠ .stepped j id e) :
    let y := replay (fun i a => ({ r with index := i } : Run).play h ms a) i actions w
    (∃ e, y.result = .ok e) ∧ y.world.IsSafe Q ∧
      h.GoesThrough w.host (scenesFrom w actions (y.steps ++ [last])) y.world.host ∧
      (scenesFrom w actions (y.steps ++ [last])).map Scene.action =
        Action.applied h actions w.host := by
  induction actions generalizing i w with
  | nil => exact ⟨⟨_, rfl⟩, hw, .nil _, rfl⟩
  | cons a rest ih =>
    obtain ⟨e, w', hplay, heffect, hhost', hsafe⟩ :=
      succeeds_play hhost ms { r with index := i } a hw
    have hplayed : (⟨a, w, w'⟩ : Scene σ).IsPlayed h := by
      refine ⟨hhost', fun hproceed => ?_⟩
      rw [heffect.trans hproceed] at hplay
      exact rest_of_play hplay
    unfold replay Action.applied
    rw [hplay, ← heffect, ← hhost']
    cases e with
    | reload =>
      have hend : scenesFrom w' rest [last] = [] := by
        obtain ⟨p, v⟩ := last
        cases p with
        | stepped j id e => exact absurd rfl (hlast j id e)
        | _ => cases rest <;> rfl
      have hthrough : h.GoesThrough w'.host (scenesFrom w' rest [last]) w'.host := by
        rw [hend]
        exact .nil _
      exact ⟨⟨_, rfl⟩, hsafe, .cons hplayed hthrough,
        congrArg (a :: ·) (congrArg (List.map Scene.action) hend)⟩
    | proceed =>
      obtain ⟨hresult, hworld, hthrough, hactions⟩ := ih (i := i + 1) hsafe
      exact ⟨hresult, hworld, .cons hplayed hthrough, congrArg (a :: ·) hactions⟩

/-- The end of a run spares the host and the storage. -/
theorem spares_closing (r : Run) (x : Replay σ) : x.world.Spares (r.closing x) := by
  unfold closing
  split
  · exact ⟨rfl, rfl, .refl _⟩
  · exact ⟨rfl, rfl, .refl _⟩
  · exact ⟨rfl, rfl, .refl _⟩

/-- An active run in a safe world goes through the scenes of the actions that are left. -/
theorem goesThrough_remainder [h.IsDiscreet] (hhost : h.Obliges Q) (ms : Nat) (r : Run)
    (actions : List Action) (hw : w.IsSafe Q) :
    let y := remainder h ms r actions w
    (∃ e, y.result = .ok e) ∧ y.world.IsSafe Q ∧
      h.GoesThrough w.host (scenesFrom w actions y.reports) y.world.host ∧
      (scenesFrom w actions y.reports).map Scene.action = Action.applied h actions w.host := by
  intro y
  let x := replay (fun i a => ({ r with index := i } : Run).play h ms a) r.index actions w
  have hclosing : x.world.Spares y.world := r.spares_closing x
  have hended (j : Nat) (id : Text) (e : Effect) : Progress.ended y.result ≠ .stepped j id e := by
    cases y.result with
    | ok e => nofun
    | error f => nofun
  obtain ⟨hresult, hsafe, hthrough, hactions⟩ :=
    goesThrough_replay hhost ms r actions (i := r.index) hw (_, y.world) hended
  rw [← hclosing.host] at hthrough
  exact ⟨hresult, hsafe.spared hclosing, hthrough, hactions⟩

/-- **A run goes through its scenes.** In a safe world a complete run ends well and leaves the world
safe. When it is left after every action it ends in the same world, and goes through the scenes of
the actions that are applied. -/
theorem goesThrough_complete [h.IsDiscreet] (hhost : h.Obliges Q) (workflow : Option Workflow)
    (hw : w.IsSafe Q) : ∃ w', (complete h workflow).exec w = (.ok (), w') ∧ w'.IsSafe Q ∧
      (∃ steps, reportsOf h workflow w = steps ++ [(.done, w')]) ∧
      h.GoesThrough w.host (scenes h workflow w) w'.host ∧
      (scenes h workflow w).map Scene.action =
        Action.applied h (ofWorkflow workflow).remaining w.host := by
  by_cases hnothing : (ofWorkflow workflow).remaining = []
  · have hcomplete := complete_of_nothing h hnothing w
    have hreports : reportsOf h workflow w = [] ++ [(.done, w.after [.logged idleRecord])] := by
      unfold reportsOf
      rw [iterate, run_advance_idle (phase_ofWorkflow workflow) hnothing]
      rfl
    have hscenes : scenes h workflow w = [] := by
      unfold scenes
      rw [hnothing]
      rfl
    rw [hscenes, hnothing]
    exact ⟨_, hcomplete, ⟨hw.calm, hw.host, hw.shelf⟩, ⟨_, hreports⟩, .nil _, rfl⟩
  obtain ⟨x, rfl⟩ : ∃ x, workflow = some x := by
    cases workflow with
    | none => exact absurd rfl hnothing
    | some x => exact ⟨x, rfl⟩
  obtain ⟨r, w₁, hbegin, hspares⟩ := succeeds_begin (ofWorkflow (some x)) hw
  obtain ⟨id, since, rfl⟩ := begin_eq hbegin
  let r : Run := { ofWorkflow (some x) with id := id, since := since }
  have hcourse : (ofWorkflow (some x)).course h w.sequencer.pacing w =
      remainder h w.sequencer.pacing r r.remaining w₁ := by
    unfold course
    rw [hbegin]
  have hcomplete := complete_eq_course (h := h) (x := x) (w := w) rfl hnothing
  have hreports : reportsOf h (some x) w =
      ((ofWorkflow (some x)).course h w.sequencer.pacing w).reports :=
    iterate_eq_course rfl rfl hnothing (Nat.le_refl _)
  obtain ⟨⟨e, hresult⟩, hsafe, hthrough, hactions⟩ :=
    goesThrough_remainder hhost w.sequencer.pacing r r.remaining (hw.spared hspares)
  rw [hspares.host] at hthrough hactions
  rw [← hcourse] at hresult hsafe hthrough hactions
  unfold scenes
  rw [hbegin, hreports]
  refine ⟨_, ?_, hsafe, ⟨((ofWorkflow (some x)).course h w.sequencer.pacing w).steps, ?_⟩,
    hthrough, hactions⟩
  · rw [hcomplete, hresult]
    rfl
  · unfold Replay.reports
    rw [hresult]
    rfl

/-- **Runs in a row go through their scenes.** In a safe world runs in a row end well and leave the
world safe, and go through the scenes of each of them. The induction is on the runs. -/
theorem goesThrough_all [h.IsDiscreet] (hhost : h.Obliges Q) (workflows : List (Option Workflow))
    (hw : w.IsSafe Q) :
    (workflows.forM (complete h)).exec w = (.ok ⟨⟩, worldAfter h workflows w) ∧
      (worldAfter h workflows w).IsSafe Q ∧
      h.GoesThrough w.host (scenesOfAll h workflows w) (worldAfter h workflows w).host := by
  induction workflows generalizing w with
  | nil => exact ⟨rfl, hw, .nil _⟩
  | cons x rest ih =>
    obtain ⟨w', hcomplete, hsafe, -, hthrough, -⟩ := goesThrough_complete hhost x hw
    obtain ⟨hrest, hsafe', hthrough'⟩ := ih hsafe
    have hworld : worldAfter h (x :: rest) w = worldAfter h rest w' := by
      rw [worldAfter, List.foldl_cons, hcomplete]
      rfl
    rw [hworld]
    refine ⟨?_, hsafe', ?_⟩
    · change (do complete h x; rest.forM (complete h)).exec w = _
      rw [Act.exec_bind, hcomplete]
      exact hrest
    · unfold scenesOfAll
      rw [hcomplete]
      exact hthrough.append hthrough'

end Run

end PushButton
