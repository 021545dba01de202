import PushButton.Proofs.Run.Concatenation
import PushButton.Proofs.Run.Freshness
import PushButton.Proofs.Run.Parameters

/-!
# A reload ends a run and forgets everything

Behind a reload nothing of a run is left to be done: a run whose actions go on behind the reload
does the same as one that has no more actions. The surface is then as new, whatever it showed
before, and nothing that is ever done changes the colour with which it is made anew.
-/

namespace PushButton

variable {σ : Type} {h : Host σ}

/-! ## Replays are kept up -/

section Upkeep

variable {R : World σ → World σ → Prop} [Upkeep R] [h.KeepsUp R]

/-- Playing an action keeps up what runs keep up. -/
theorem Action.upkeep_play (ms : Nat) (a : Action) : Act.Respects R (a.play h ms) := by
  refine (Upkeep.sleep ms).bind fun _ => ?_
  refine ((a.ordinary_apply h).respects (Host.KeepsUp.allows h)).bind fun e => ?_
  cases e with
  | proceed => exact Act.Respects.pure _
  | reload => exact Act.Respects.bind (Upkeep.change .remake) fun _ => Act.Respects.pure _

/-- A replay anew keeps up what runs keep up. -/
theorem upkeep_replayAnew (ms : Nat) (actions : List Action) (w : World σ) :
    R w (replayAnew h ms actions w).world := by
  have hclear : R w (Act.clear.exec w).2 := Upkeep.change .clear w
  unfold replayAnew
  generalize Act.clear.exec w = out at hclear ⊢
  obtain ⟨res, w'⟩ := out
  cases res with
  | error f => exact hclear
  | ok _ =>
    refine Act.Frame.trans hclear ?_
    exact replay_respects (fun _ a => a.upkeep_play ms) actions

end Upkeep

/-! ## The colour of a new surface -/

/-- Whatever runs do, the surface is made anew with the same colour. -/
instance : Upkeep fun w w' : World σ => w'.surface.initialColor = w.surface.initialColor where
  change c w := by
    change (c.act.exec w).2.surface.initialColor = w.surface.initialColor
    rw [c.surface_act]
    cases c with
    | putLine | putImage | grow | paint | disable | clear | remake => rfl
  aside _ hsurface _ _ _ := congrArg SurfaceState.initialColor hsurface

instance : h.KeepsUp fun w w' : World σ =>
    w'.surface.initialColor = w.surface.initialColor where
  ask _ _ := rfl
  settle _ _ := rfl
  abandon _ _ := rfl

/-- Whatever is done, the surface is made anew with the same colour. The induction is on what is
done. -/
theorem Traffic.initialColor_performAll (h : Host σ) (t : Traffic σ) (ops : List Operation) :
    (t.performAll h ops).world.surface.initialColor = t.world.surface.initialColor := by
  let R : World σ → World σ → Prop := fun w w' => w'.surface.initialColor = w.surface.initialColor
  induction ops generalizing t with
  | nil => rfl
  | cons op ops ih =>
    have hfirst : R t.world (t.perform h op).world := by
      cases op with
      | change c => exact Upkeep.change (R := R) c t.world
      | subscribe l => rfl
      | unsubscribe name => rfl
      | run workflow => exact Run.upkeep_complete (R := R) h workflow t.world
      | turn turn => exact t.upkeep_take (R := R) turn
    exact (ih (t.perform h op)).trans hfirst

/-! ## What becomes of a reload -/

/-- Two results of actions that were applied are the same if they are the same as results of actions
that were begun. -/
theorem Begun.eq_of_map_applied {res res' : Except Failure Effect}
    (heq : res.map applied = res'.map applied) : res = res' := by
  cases res with
  | ok e =>
    cases res' with
    | ok e' =>
      cases heq
      rfl
    | error f => cases heq
  | error f =>
    cases res' with
    | ok e' => cases heq
    | error f' =>
      cases heq
      rfl

/-- Whatever runs do, no observer comes. -/
instance : Upkeep fun w w' : World σ => w'.listeners.Sublist w.listeners where
  refl _ := .refl _
  trans h h' := h'.trans h
  change c w := (c.quiet_act w).listeners
  aside _ _ hlisteners _ _ := hlisteners ▸ .refl _

instance : h.KeepsUp fun w w' : World σ => w'.listeners.Sublist w.listeners where
  ask _ _ := .refl _
  settle _ _ := .refl _
  abandon _ _ := .refl _

namespace Action

variable {a : Action}

/-- What comes of a reload with a reply. -/
def reloadResult : Reply → Except Failure Effect
  | .failed f => if f.kind = .refused then .ok .proceed else .error f
  | .done | .answer _ => .ok .reload

/-- What a reply to a reload means. -/
theorem result_conclude_reload (hkind : a.kind = .refreshPage) (reply : Reply) (w : World σ) :
    ((a.conclude reply).exec w).1 = reloadResult reply := by
  unfold conclude
  rw [hkind]
  cases reply with
  | done | answer => rfl
  | failed f =>
    unfold whenRefused reloadResult
    dsimp only
    split
    · rfl
    · rfl

/-- The result of an action that makes a request is what the reply to it means. -/
theorem exists_result_apply {r : Request} (hr : a.request? = some r) (w : World σ) :
    ∃ reply, ∃ u : World σ, a.reply? h false w.host = some reply ∧
      ((a.apply h).exec w).1 = ((a.conclude reply).exec u).1 := by
  have hbegun {act : Act σ Effect} {since : Nat} {u : World σ} :
      ((do pure (.applied (← a.timed since act)) : Act σ Begun).exec u).1 =
        ((act.exec u).1).map .applied := by
    rw [Act.exec_bind, exec_timed]
    cases (act.exec u).1 with
    | ok e => rfl
    | error f => rfl
  obtain ⟨res, w', hstart, happly⟩ := a.exec_apply h w
  suffices hsuffices : ∃ reply, ∃ u : World σ, a.reply? h false w.host = some reply ∧
      ((a.start h false).exec w).1 = ((a.conclude reply).exec u).1.map .applied by
    obtain ⟨reply, u, hreply, hresult⟩ := hsuffices
    rw [hstart] at hresult
    rw [happly]
    exact ⟨reply, u, hreply, Begun.eq_of_map_applied hresult⟩
  unfold start reply?
  rw [Act.exec_bind, Act.exec_log]
  dsimp only
  generalize hw₁ : w.after [_] = w₁
  have hhost : w₁.host = w.host := hw₁ ▸ rfl
  rw [Act.exec_bind, Act.exec_get, hr]
  dsimp only
  rw [Act.exec_bind, Act.exec_ask, hhost]
  dsimp only
  obtain ⟨reply, host, os⟩ := h.ask r w.host
  cases reply with
  | some reply => exact ⟨reply, _, rfl, hbegun⟩
  | none =>
    have hsettle (u : World σ) : ((do conclude a (← Act.settle h r) : Act σ Effect).exec u).1 =
        ((a.conclude (h.settle r u.host).1).exec ({ u with
          host := (h.settle r u.host).2.1 }.after (h.settle r u.host).2.2)).1 := rfl
    exact ⟨_, _, rfl, hbegun.trans (congrArg _ (hsettle _))⟩

/-- A reload has the result that the reply calls for. -/
theorem exists_result_apply_reload (hkind : a.kind = .refreshPage) (w : World σ) :
    ∃ reply, a.reply? h false w.host = some reply ∧
      ((a.apply h).exec w).1 = reloadResult reply := by
  have hrequest : a.request? = some .reload := by
    unfold request?
    rw [hkind]
  obtain ⟨reply, u, hreply, hresult⟩ := exists_result_apply hrequest w
  exact ⟨reply, hreply, hresult.trans (result_conclude_reload hkind reply u)⟩

/-- A reload is played: the surface is made anew if the host has met the request. -/
theorem exists_exec_play_reload (hkind : a.kind = .refreshPage) (ms : Nat) (w : World σ) :
    ∃ reply, ∃ u : World σ, a.reply? h false w.host = some reply ∧
      u.listeners.Sublist w.listeners ∧ (a.play h ms).exec w =
        match reloadResult reply with
        | .ok .reload => ((Act.remake.exec u).1.map fun _ => .reload, (Act.remake.exec u).2)
        | res => (res, u) := by
  unfold play
  rw [Act.exec_bind, Act.exec_sleep]
  dsimp only
  generalize hslept : World.mk _ _ _ _ _ _ _ _ _ = w₁
  have hhost : w₁.host = w.host := hslept ▸ rfl
  have hlisteners : w₁.listeners = w.listeners := hslept ▸ rfl
  obtain ⟨reply, hreply, hresult⟩ := exists_result_apply_reload (h := h) hkind w₁
  let R : World σ → World σ → Prop := fun w w' => w'.listeners.Sublist w.listeners
  have hleft : R w₁ ((a.apply h).exec w₁).2 :=
    (a.ordinary_apply h).respects (R := R) (Host.KeepsUp.allows h) w₁
  rw [hhost] at hreply
  change List.Sublist _ _ at hleft
  rw [hlisteners] at hleft
  refine ⟨reply, ((a.apply h).exec w₁).2, hreply, hleft, ?_⟩
  rw [Act.exec_bind]
  generalize (a.apply h).exec w₁ = out at hresult
  obtain ⟨res, u⟩ := out
  obtain rfl : res = reloadResult reply := hresult
  cases reloadResult reply with
  | error f => rfl
  | ok e =>
    cases e with
    | proceed => rfl
    | reload =>
      dsimp only
      rw [if_pos rfl, Act.exec_bind]
      generalize Act.remake.exec u = out
      obtain ⟨res, v⟩ := out
      cases res with
      | ok _ => rfl
      | error f => rfl

/-- Playing a reload that is not refused never lets the run go on. -/
theorem result_play_reload (hkind : a.kind = .refreshPage) (ms : Nat) {w : World σ}
    (hrefused : ∀ f, a.reply? h false w.host = some (.failed f) → f.kind ≠ .refused) :
    ((a.play h ms).exec w).1 ≠ .ok .proceed := by
  obtain ⟨reply, u, hreply, -, hplay⟩ := exists_exec_play_reload (h := h) hkind ms w
  rw [hplay]
  cases reply with
  | done | answer =>
    dsimp only [reloadResult]
    cases (Act.remake.exec u).1 with
    | ok _ => nofun
    | error f => nofun
  | failed f =>
    dsimp only [reloadResult]
    rw [if_neg (hrefused f hreply)]
    nofun

/-- Playing a reload that the host meets makes the surface anew, and succeeds unless an observer
fails. -/
theorem exists_fresh_play_reload (hkind : a.kind = .refreshPage) (ms : Nat) {w : World σ}
    (hmet : ∀ f, a.reply? h false w.host ≠ some (.failed f)) :
    (∃ color, ((a.play h ms).exec w).2.surface = .fresh color) ∧
      (w.IsCalm → ((a.play h ms).exec w).1 = .ok .reload) := by
  obtain ⟨reply, u, hreply, hlisteners, hplay⟩ := exists_exec_play_reload (h := h) hkind ms w
  have hmade : reloadResult reply = .ok .reload := by
    cases reply with
    | done | answer => rfl
    | failed f => exact (hmet f hreply).elim
  rw [hplay, hmade]
  refine ⟨⟨_, SurfaceChange.remake.surface_act u⟩, fun hcalm => ?_⟩
  obtain ⟨v, hremake⟩ := SurfaceChange.remake.exists_exec_act (hcalm.of_sublist hlisteners)
  have hremake : Act.remake.exec u = (.ok ⟨⟩, v) := hremake
  rw [hremake]
  rfl

end Action

/-! ## Nothing is done behind a reload -/

/-- Two replays have the same steps and the same result, and their worlds differ in records. -/
structure Replay.SameButRecords (x y : Replay σ) : Prop where
  /-- The steps are the same. -/
  steps : List.Forall₂ (fun s s' => s.1 = s'.1 ∧ s.2.AlikeButRecords s'.2) x.steps y.steps
  /-- The result is the same. -/
  result : x.result = y.result
  /-- The worlds at the end differ in records. -/
  world : x.world.AlikeButRecords y.world

namespace Run

/-- What comes of an active run that does not apply all its actions is what comes of one with more
actions. The induction is on the actions that both of them have. -/
theorem sameButRecords_remainder (ms : Nat) (actions later : List Action) {r r' : Run}
    (hindex : r.index = r'.index) {w w' : World σ} (hw : w.AlikeButRecords w')
    (hcut : (remainder h ms r actions w).result ≠ .ok .proceed) :
    (remainder h ms r actions w).SameButRecords (remainder h ms r' (actions ++ later) w') := by
  induction actions generalizing r r' w w' with
  | nil => exact (hcut rfl).elim
  | cons a rest ih =>
    have hself : a.ReadsLike a := ⟨rfl, fun _ _ => rfl⟩
    obtain ⟨res, u, u', hu, hu', hworlds⟩ :=
      (agreesUpTo_play_readsLike (h := h) hindex ms hself).exists_exec hw
    rw [List.cons_append, remainder_cons, remainder_cons, hu, hu', hindex]
    rw [remainder_cons, hu] at hcut
    cases res with
    | error f => exact ⟨.nil, rfl, alikeButRecords_released hworlds⟩
    | ok e =>
      cases e with
      | reload => exact ⟨.cons ⟨rfl, hworlds⟩ .nil, rfl, alikeButRecords_released hworlds⟩
      | proceed =>
        have hnext : r.next.index = r'.next.index := congrArg (· + 1) hindex
        have hlater := ih hnext hworlds hcut
        exact ⟨.cons ⟨rfl, hworlds⟩ hlater.steps, hlater.result, hlater.world⟩

/-- The course of a run that does not apply all its actions is that of one with more actions. -/
theorem sameButRecords_course (ms : Nat) {r r' : Run} (later : List Action)
    (hactions : r'.remaining = r.remaining ++ later) (hindex : r.index = r'.index) {w : World σ}
    (hblind : w.IsBlind) (hcut : (r.course h ms w).result ≠ .ok .proceed) :
    (r.course h ms w).SameButRecords (r'.course h ms w) := by
  have hnumbered : (r.numbered w).AlikeButRecords (r'.numbered w) := by
    unfold numbered
    refine World.AlikeButRecords.after_records ?_ _ _
    exact .refl hblind
  have hclear : Act.AgreesUpTo World.AlikeButRecords (Act.clear : Act σ Unit) Act.clear :=
    Act.agreesUpTo_clear
  obtain ⟨res, u, u', hu, hu', hworlds⟩ := hclear.exists_exec hnumbered
  unfold course at hcut ⊢
  rw [exec_begin, hu] at hcut
  rw [exec_begin, exec_begin, hu, hu']
  cases res with
  | error f => exact ⟨.nil, rfl, hworlds⟩
  | ok _ =>
    let begun : Run := { r with id := idOf (w.runIds + 1), since := w.clock }
    let begun' : Run := { r' with id := idOf (w.runIds + 1), since := w.clock }
    have hbegun : begun.index = begun'.index := hindex
    dsimp only [Except.map] at hcut ⊢
    rw [hactions]
    exact sameButRecords_remainder ms r.remaining later hbegun hworlds hcut

/-- In one world, the complete runs of two workflows have the same result and leave worlds that
differ in records, and when they are left after every action they report the same. -/
structure EqualRuns (h : Host σ) (w : World σ) (x x' : Workflow) : Prop where
  /-- The result is the same. -/
  result : ((complete h (some x)).exec w).1 = ((complete h (some x')).exec w).1
  /-- The worlds differ in records. -/
  world : ((complete h (some x)).exec w).2.AlikeButRecords ((complete h (some x')).exec w).2
  /-- The reports are the same. -/
  reports : List.Forall₂ (fun p p' => p.1 = p'.1 ∧ p.2.AlikeButRecords p'.2)
    (reportsOf h (some x) w) (reportsOf h (some x') w)

/-- Runs go alike whose courses do. -/
theorem equalRuns_of_course {x x' : Workflow} {w : World σ} (hx : x.actions ≠ [])
    (hx' : x'.actions ≠ [])
    (hcourse : ((ofWorkflow (some x)).course h w.sequencer.pacing w).SameButRecords
      ((ofWorkflow (some x')).course h w.sequencer.pacing w)) : EqualRuns h w x x' := by
  have hreports {y : Workflow} (hy : y.actions ≠ []) : reportsOf h (some y) w =
      ((ofWorkflow (some y)).course h w.sequencer.pacing w).reports :=
    iterate_eq_course rfl rfl hy (Nat.le_refl _)
  refine ⟨?_, ?_, ?_⟩
  · rw [complete_eq_course rfl hx, complete_eq_course rfl hx', hcourse.result]
  · rw [complete_eq_course rfl hx, complete_eq_course rfl hx']
    exact hcourse.world
  · rw [hreports hx, hreports hx']
    unfold Replay.reports
    rw [hcourse.result]
    exact List.rel_append hcourse.steps (.cons ⟨rfl, hcourse.world⟩ .nil)

end Run

/-- A replay anew whose first actions all proceed plays the next action. -/
theorem replayAnew_append_one {ms : Nat} {actions : List Action} {a : Action} {w : World σ}
    (hproceed : (replayAnew h ms actions w).result = .ok .proceed) :
    (replayAnew h ms (actions ++ [a]) w).result =
        ((a.play h ms).exec (replayAnew h ms actions w).world).1 ∧
      (replayAnew h ms (actions ++ [a]) w).world =
        ((a.play h ms).exec (replayAnew h ms actions w).world).2 := by
  have hone (i : Nat) (u : World σ) :
      (replay (fun _ a => a.play h ms) i [a] u).result = ((a.play h ms).exec u).1 ∧
        (replay (fun _ a => a.play h ms) i [a] u).world = ((a.play h ms).exec u).2 := by
    unfold replay
    generalize (a.play h ms).exec u = out
    obtain ⟨res, v⟩ := out
    cases res with
    | error f => exact ⟨rfl, rfl⟩
    | ok e =>
      cases e with
      | reload => exact ⟨rfl, rfl⟩
      | proceed => exact ⟨rfl, rfl⟩
  unfold replayAnew at hproceed ⊢
  generalize Act.clear.exec w = out at hproceed ⊢
  obtain ⟨res, v⟩ := out
  cases res with
  | error f => cases hproceed
  | ok _ =>
    obtain ⟨hresult, hworld⟩ := replay_append actions [a] hproceed rfl
    obtain ⟨hresult', hworld'⟩ := hone (0 + actions.length)
      (replay (fun _ a => a.play h ms) 0 actions v).world
    exact ⟨hresult.trans hresult', hworld.trans hworld'⟩

/-- **A reload ends a run and forgets everything.** Actions stand in front of a reload, and others
behind it. As long as no observer looks at records, the following holds for every waiting time. When
the former are applied up to the reload and the host does not refuse it, then a run of all the
actions has the result of a run that ends with the reload, and leaves the same world, records apart;
and when both are left after every action, they report the same in the same worlds: no action behind
the reload is ever taken up. When the host meets the reload, the surface is then as new, whatever it
showed before, and the run succeeds unless an observer fails. The colour with which the surface is
made anew is never changed by anything that is done. -/
theorem Run.reload_forgets (h : Host σ) (ms : Int) {w₀ : World σ} (hblind : w₀.IsBlind)
    (before behind : List Action) {a : Action} (hkind : a.kind = .refreshPage) {x y : Workflow}
    (hx : x.actions = before ++ [a]) (hy : y.actions = before ++ a :: behind) :
    (let w := w₀.withPacing ms
      let there := replayAnew h ms.toNat before w
      there.result = .ok .proceed →
      (∀ f, a.reply? h false there.world.host = some (.failed f) → f.kind ≠ .refused) →
      EqualRuns h w x y ∧
      ((∀ f, a.reply? h false there.world.host ≠ some (.failed f)) →
        ((complete h (some y)).exec w).2.surface = .fresh w₀.surface.initialColor ∧
        (w₀.IsCalm → ((complete h (some y)).exec w).1 = .ok ()))) ∧
    ∀ (t : Traffic σ) (ops : List Traffic.Operation),
      (t.performAll h ops).world.surface.initialColor = t.world.surface.initialColor := by
  refine ⟨fun hproceed hrefused => ?_, Traffic.initialColor_performAll h⟩
  have hw : (w₀.withPacing ms).IsBlind := hblind
  have hx' : x.actions ≠ [] := by simp [hx]
  have hy' : y.actions ≠ [] := by simp [hy]
  -- the run that ends with the reload is like a replay of its actions
  have hlike : ((ofWorkflow (some x)).course h ms.toNat (w₀.withPacing ms)).IsLike
      (replayAnew h ms.toNat (before ++ [a]) (w₀.withPacing ms)) := by
    have hremaining : (ofWorkflow (some x)).remaining = before ++ [a] := hx
    rw [← hremaining]
    exact isLike_course ms.toNat rfl hw
  obtain ⟨hresult, hworld⟩ := replayAnew_append_one (a := a) hproceed
  have hcourse : ((ofWorkflow (some x)).course h ms.toNat (w₀.withPacing ms)).SameButRecords
      ((ofWorkflow (some y)).course h ms.toNat (w₀.withPacing ms)) := by
    have hindex : (ofWorkflow (some x)).index = (ofWorkflow (some y)).index := rfl
    refine sameButRecords_course ms.toNat behind ?_ hindex hw ?_
    · change y.actions = x.actions ++ behind
      rw [hx, hy, List.append_assoc, List.singleton_append]
    · rw [hlike.result, hresult]
      exact Action.result_play_reload hkind ms.toNat hrefused
  have hequal : EqualRuns h (w₀.withPacing ms) x y := equalRuns_of_course hx' hy' hcourse
  refine ⟨hequal, fun hmet => ?_⟩
  obtain ⟨⟨color, hfresh⟩, hsucceeds⟩ := Action.exists_fresh_play_reload hkind ms.toNat hmet
  have hcomplete : (complete h (some x)).exec (w₀.withPacing ms) =
      (((ofWorkflow (some x)).course h ms.toNat (w₀.withPacing ms)).result.map fun _ => (),
        ((ofWorkflow (some x)).course h ms.toNat (w₀.withPacing ms)).world) :=
    complete_eq_course rfl hx'
  constructor
  · have hsurface : ((complete h (some y)).exec (w₀.withPacing ms)).2.surface = .fresh color := by
      rw [← hequal.world.same World.surface fun _ _ => rfl, hcomplete, hlike.world.surface, hworld,
        hfresh]
    have hcolor : ((complete h (some y)).exec (w₀.withPacing ms)).2.surface.initialColor =
        w₀.surface.initialColor :=
      upkeep_complete (R := fun w w' => w'.surface.initialColor = w.surface.initialColor) h (some y)
        (w₀.withPacing ms)
    rw [hsurface] at hcolor
    rw [hsurface, ← hcolor]
    rfl
  · intro hcalm
    have hthere : (replayAnew h ms.toNat before (w₀.withPacing ms)).world.IsCalm :=
      hcalm.of_sublist (upkeep_replayAnew (h := h)
        (R := fun w w' : World σ => w'.listeners.Sublist w.listeners) ms.toNat before _)
    rw [← hequal.result, hcomplete, hlike.result, hresult, hsucceeds hthere]
    rfl

/-- A button that was disabled before, a line and a change of colour in front of a reload, and a
line behind it: nothing of all that is left but the colour for new surfaces. -/
theorem Run.reload_forgets_line_and_color :
    let a : Action := ⟨"a3", .refreshPage, none⟩
    let before : List Action := [⟨"a1", .showText, some [("text", "Hi")]⟩,
      ⟨"a2", .changeButtonColor, some [("color", "red")]⟩]
    let behind : List Action := [⟨"a4", .showText, some [("text", "Never")]⟩]
    let x : Workflow := ⟨"Go", before ++ [a]⟩
    let y : Workflow := ⟨"Go", before ++ a :: behind⟩
    let w₀ : World HostScript := {
      surface := { SurfaceState.fresh "teal" with disabled := true }
      listeners := [Streaming.listener], shelf := ⟨.memory [], ⟨[], [], []⟩⟩
      host := {}, sequencer := .paced 0 }
    let w := w₀.withPacing 5
    w₀.IsBlind ∧ (replayAnew HostScript.host (Int.toNat 5) before w).result = .ok .proceed ∧
      (∀ f, a.reply? HostScript.host false
        (replayAnew HostScript.host (Int.toNat 5) before w).world.host ≠ some (.failed f)) ∧
      EqualRuns HostScript.host w x y ∧
      ((complete HostScript.host (some y)).exec w).2.surface = .fresh "teal" ∧
      ((complete HostScript.host (some y)).exec w).1 = .ok () := by
  intro a before behind x y w₀ w
  have hblind : w₀.IsBlind := by
    intro l hl
    rw [List.mem_singleton.mp hl]
    exact Streaming.ignoresRecords_listener
  have hcalm : w₀.IsCalm := by
    intro l hl
    rw [List.mem_singleton.mp hl]
    exact Streaming.neverFails_listener
  have hproceed : (replayAnew HostScript.host (Int.toNat 5) before w).result = .ok .proceed := by
    decide +kernel
  have hreply : a.reply? HostScript.host false
      (replayAnew HostScript.host (Int.toNat 5) before w).world.host = some .done := by
    decide +kernel
  have hmet (f : Failure) : a.reply? HostScript.host false
      (replayAnew HostScript.host (Int.toNat 5) before w).world.host ≠ some (.failed f) := by
    rw [hreply]
    nofun
  obtain ⟨hforgets, -⟩ := Run.reload_forgets HostScript.host 5 hblind before behind
    (a := a) rfl (x := x) (y := y) rfl rfl
  obtain ⟨hequal, hfresh⟩ := hforgets hproceed fun f hf => (hmet f hf).elim
  obtain ⟨hsurface, hsucceeds⟩ := hfresh hmet
  refine ⟨hblind, hproceed, hmet, hequal, ?_, hsucceeds hcalm⟩
  rw [hsurface]
  rfl

end PushButton
