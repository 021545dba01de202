import PushButton.Proofs.Run.Obstacles
import PushButton.Proofs.Run.Times

/-!
# One run of many actions, or two runs

What an action does never depends on the lines and images that are there. So a run of actions and
then more of them goes like a run of the former and then a run of the latter, which finds lines and
images taken away: only that in the end the lines and images of the former stand in front of those
of the latter.
-/

namespace PushButton

variable {σ α : Type}

/-- The state with lines and images in front of its own. -/
def SurfaceState.behind (lines images : List Text) (s : SurfaceState) : SurfaceState :=
  { s with output := lines ++ s.output, images := images ++ s.images }

/-- Time passes, or a host is asked or called. -/
def Occurrence.isDealing : Occurrence → Bool
  | .slept _ | .asked _ | .called _ => true
  | .logged _ | .notified _ _ _ _ | .printed _ => false

namespace World

/-- The waiting times and what hosts did, the latest first. -/
def dealings (w : World σ) : List Occurrence := w.past.filter Occurrence.isDealing

/-- A world goes on with lines and images where another one has taken them away; but for records and
for what observers were told and have printed, both worlds are the same. No observer ever fails. -/
structure Continues (lines images : List Text) (w w' : World σ) : Prop where
  /-- The lines and images stand in front of those of the other world; all else that the surface
  shows is the same. -/
  surface : w.surface = w'.surface.behind lines images
  /-- The storage and the files are the same. -/
  shelf : w.shelf = w'.shelf
  /-- The random numbers to come are the same. -/
  draws : w.draws = w'.draws
  /-- The same time has passed. -/
  clock : w.clock = w'.clock
  /-- The host is in the same state. -/
  host : w.host = w'.host
  /-- The same waiting times have passed and hosts did the same, in the same order. -/
  dealings : w.dealings = w'.dealings
  /-- No observer of the one world fails. -/
  calm : w.IsCalm
  /-- No observer of the other world fails. -/
  calm' : w'.IsCalm

end World

/-! ## Telling observers -/

/-- A step tells observers in a calm world: it succeeds, and makes no difference to the host. -/
def Act.Tells (act : Act σ PUnit) : Prop :=
  ∀ w : World σ, w.IsCalm → ∃ w', act.exec w = (.ok ⟨⟩, w') ∧ w.Quiet w' ∧ w'.dealings = w.dealings

namespace Act

/-- What happens without the host makes no difference to it. -/
theorem dealings_occur {o : Occurrence} (ho : o.isDealing = false) :
    Respects (fun w w' : World σ => w'.dealings = w.dealings) (occur o) := by
  intro w
  exact List.filter_cons_of_neg (by simp [ho])

/-- Telling observers is no business of the host. -/
theorem dealings_notify (field : Field) :
    Respects (fun w w' : World σ => w'.dealings = w.dealings) (notify field) := by
  refine Respects.bind Respects.get fun w => Respects.forM fun l _ => ?_
  refine Respects.bind Respects.get fun w => Respects.bind (dealings_occur rfl) fun _ => ?_
  refine Respects.bind (Respects.forM fun t _ => dealings_occur rfl) fun _ => ?_
  refine Respects.bind (Respects.modify fun _ => rfl) fun _ => ?_
  split
  · exact Respects.throw _
  · exact Respects.pure _

/-- All observers are told about a change. -/
theorem tells_notify (field : Field) : (notify field : Act σ PUnit).Tells := by
  intro w hcalm
  obtain ⟨w', hnotify⟩ := exists_exec_notify field hcalm
  have hquiet := quiet_notify field w
  have hdealings := dealings_notify field w
  rw [hnotify] at hquiet hdealings
  exact ⟨w', hnotify, hquiet, hdealings⟩

end Act

namespace World

variable {lines images : List Text} {w w' : World σ}

/-- A quiet step leaves what has to do neither with observers nor with what has happened as it
is. -/
theorem Quiet.same {γ : Type} {u : World σ} (h : w.Quiet u) (f : World σ → γ)
    (hf : ∀ (v : World σ) ls past, f { v with listeners := ls, past := past } = f v) :
    f u = f w :=
  (hf u w.listeners w.past).symm.trans (congrArg f h.rest)

/-- Worlds stay as they are to each other when observers are told in both of them. -/
theorem Continues.of_quiet {u u' : World σ} (h : w.Continues lines images w') (hu : w.Quiet u)
    (hdealings : u.dealings = w.dealings) (hu' : w'.Quiet u')
    (hdealings' : u'.dealings = w'.dealings) : u.Continues lines images u' := by
  refine ⟨?_, ?_, ?_, ?_, ?_, ?_, h.calm.of_sublist hu.listeners, h.calm'.of_sublist hu'.listeners⟩
  · rw [hu.surface, hu'.surface, h.surface]
  · rw [hu.same World.shelf fun _ _ _ => rfl, hu'.same World.shelf fun _ _ _ => rfl, h.shelf]
  · rw [hu.same World.draws fun _ _ _ => rfl, hu'.same World.draws fun _ _ _ => rfl, h.draws]
  · rw [hu.same World.clock fun _ _ _ => rfl, hu'.same World.clock fun _ _ _ => rfl, h.clock]
  · rw [hu.same World.host fun _ _ _ => rfl, hu'.same World.host fun _ _ _ => rfl, h.host]
  · rw [hdealings, hdealings', h.dealings]

/-- Worlds stay as they are to each other when each makes a record of its own. -/
theorem Continues.after_records (h : w.Continues lines images w') (r r' : Record) :
    (w.after [.logged r]).Continues lines images (w'.after [.logged r']) :=
  { h with }

/-- Worlds stay as they are to each other when the same happens. -/
theorem Continues.after (h : w.Continues lines images w') (os : List Occurrence) :
    (w.after os).Continues lines images (w'.after os) where
  surface := h.surface
  shelf := h.shelf
  draws := h.draws
  clock := h.clock
  host := h.host
  dealings := by
    change (os.reverse ++ w.past).filter _ = (os.reverse ++ w'.past).filter _
    rw [List.filter_append, List.filter_append]
    exact congrArg _ h.dealings
  calm := h.calm
  calm' := h.calm'

/-- The same part of the surface is changed, in a way that has nothing to do with the lines and
images in front. -/
theorem agreesUpTo_change (field : Field) {f : SurfaceState → SurfaceState}
    (hf : ∀ s : SurfaceState, f (s.behind lines images) = (f s).behind lines images) :
    Act.AgreesUpTo (Continues (σ := σ) lines images) (Act.change field f) (Act.change field f) := by
  refine (Act.AgreesUpTo.modify fun w w' hw => ?_).bind fun _ w w' hw => ?_
  · exact { hw with surface := by rw [hw.surface, hf] }
  · obtain ⟨u, hu, hquiet, hdealings⟩ := Act.tells_notify field w hw.calm
    obtain ⟨u', hu', hquiet', hdealings'⟩ := Act.tells_notify field w' hw.calm'
    rw [hu, hu']
    exact ⟨rfl, hw.of_quiet hquiet hdealings hquiet' hdealings'⟩

/-- Actions do the same in both worlds. -/
instance : Kinship (Continues (σ := σ) lines images) where
  shelf hw := hw.shelf
  draws hw := hw.draws
  recorded rs hw := hw.after (rs.map .logged)
  with_shelf s hw := { hw with shelf := rfl }
  with_draws ns hw := { hw with draws := rfl }
  took _ _ _ _ hw := hw.after_records _ _
  putLine line := agreesUpTo_change .output fun s => by
    simp [SurfaceState.behind]
  putImage url := agreesUpTo_change .images fun s => by
    simp [SurfaceState.behind]
  grow _ := agreesUpTo_change .scale fun _ => rfl
  paint _ := agreesUpTo_change .color fun _ => rfl
  disable := agreesUpTo_change .disabled fun _ => rfl

/-- Worlds stay as they are to each other when the host does the same. -/
theorem Continues.with_host (h : w.Continues lines images w') (s : σ) (os : List Occurrence) :
    ({ w with host := s }.after os).Continues lines images ({ w' with host := s }.after os) := by
  have hhost : World.Continues lines images { w with host := s } { w' with host := s } :=
    { h with host := rfl }
  exact hhost.after os

instance (h : Host σ) : h.Heeds (Continues lines images) where
  ask r hw := by
    rw [hw.host]
    exact ⟨rfl, hw.with_host _ _⟩
  settle r hw := by
    rw [hw.host]
    exact ⟨rfl, hw.with_host _ _⟩

end World

/-! ## Replays of the same actions -/

/-- Playing an action has the same result in both worlds, and unless the surface was reloaded, the
worlds stay as they are to each other. -/
def ContinuesPlay (lines images : List Text) (play play' : Act σ Effect) : Prop :=
  ∀ w w', w.Continues lines images w' → (play.exec w).1 = (play'.exec w').1 ∧
    ((play'.exec w').1 ≠ .ok .reload → (play.exec w).2.Continues lines images (play'.exec w').2)

/-- Two replays have the same result, and unless the surface was reloaded, their worlds are to each
other as the worlds at the beginning were. -/
structure Replay.Continues (lines images : List Text) (x y : Replay σ) : Prop where
  /-- The result is the same. -/
  result : x.result = y.result
  /-- The worlds at the end are to each other as those at the beginning. -/
  world : y.result ≠ .ok .reload → x.world.Continues lines images y.world

variable {lines images : List Text}

/-- Replays have the same result when the actions are played in the same way. The induction is on
the actions. -/
theorem continues_replay {play play' : Nat → Action → Act σ Effect}
    (hplay : ∀ i j a, ContinuesPlay lines images (play i a) (play' j a)) (actions : List Action)
    {i j : Nat} {w w' : World σ} (hw : w.Continues lines images w') :
    (replay play i actions w).Continues lines images (replay play' j actions w') := by
  induction actions generalizing i j w w' with
  | nil => exact ⟨rfl, fun _ => hw⟩
  | cons a rest ih =>
    have hstep := hplay i j a w w' hw
    unfold replay
    generalize (play i a).exec w = out at hstep ⊢
    generalize (play' j a).exec w' = out' at hstep ⊢
    obtain ⟨res, u⟩ := out
    obtain ⟨res', u'⟩ := out'
    obtain ⟨hresult, hworlds⟩ := hstep
    obtain rfl : res = res' := hresult
    cases res with
    | error f => exact ⟨rfl, fun _ => hworlds (by simp)⟩
    | ok e =>
      cases e with
      | reload => exact ⟨rfl, fun h => (h rfl).elim⟩
      | proceed =>
        have hlater := ih (i := i + 1) (j := j + 1) (hworlds (by simp))
        exact ⟨hlater.result, hlater.world⟩

/-- A replay of actions that all proceed goes on with more actions. -/
theorem replay_append {play : Nat → Action → Act σ Effect} (actions later : List Action) {i : Nat}
    {w u : World σ} (hproceed : (replay play i actions w).result = .ok .proceed)
    (hworld : (replay play i actions w).world = u) :
    (replay play i (actions ++ later) w).result =
        (replay play (i + actions.length) later u).result ∧
      (replay play i (actions ++ later) w).world =
        (replay play (i + actions.length) later u).world := by
  induction actions generalizing i w with
  | nil =>
    subst hworld
    exact ⟨rfl, rfl⟩
  | cons a rest ih =>
    have hindex : i + (a :: rest).length = i + 1 + rest.length := by
      rw [List.length_cons, Nat.add_assoc, Nat.add_comm 1]
    rw [hindex, List.cons_append]
    rw [replay] at hproceed hworld ⊢
    generalize (play i a).exec w = out at hproceed hworld ⊢
    obtain ⟨res, w'⟩ := out
    cases res with
    | error f => cases hproceed
    | ok e =>
      cases e with
      | reload => cases hproceed
      | proceed => exact ih hproceed hworld

namespace Run

variable {h : Host σ}

/-- A step that does the same in both worlds, and then an action that is played in the same way. -/
theorem ContinuesPlay.bind {act act' : Act σ α} {next next' : α → Act σ Effect}
    (hact : Act.AgreesUpTo (World.Continues lines images) act act')
    (hnext : ∀ x, ContinuesPlay lines images (next x) (next' x)) :
    ContinuesPlay lines images (act >>= next) (act' >>= next') := by
  intro w w' hw
  obtain ⟨res, u, u', hu, hu', hworlds⟩ := hact.exists_exec hw
  rw [Act.exec_bind, Act.exec_bind, hu, hu']
  cases res with
  | error f => exact ⟨rfl, fun _ => hworlds⟩
  | ok x => exact hnext x u u' hworlds

/-- Two runs play an action in the same way. -/
theorem continues_play (r r' : Run) (ms : Nat) (a : Action) :
    ContinuesPlay lines images (r.play h ms a) (r'.play h ms a) := by
  have hsleep : Act.AgreesUpTo (World.Continues lines images) (Act.sleep ms : Act σ Unit)
      (Act.sleep ms) := by
    unfold Act.sleep
    split
    · refine (Act.AgreesUpTo.modify fun w w' hw => ?_).bind fun _ w w' hw =>
        ⟨rfl, hw.after [.slept ms]⟩
      exact { hw with clock := congrArg (· + ms) hw.clock }
    · exact Act.AgreesUpTo.pure _
  have hannounce : Act.AgreesUpTo (World.Continues lines images) (r.announce a : Act σ Unit)
      (r'.announce a) := by
    intro w w' hw
    have hcurrent : World.Continues lines images
        { w with sequencer := { w.sequencer with current := some r.index } }
        { w' with sequencer := { w'.sequencer with current := some r'.index } } := { hw with }
    exact ⟨rfl, hcurrent.after_records _ _⟩
  refine ContinuesPlay.bind hsleep fun _ => ContinuesPlay.bind hannounce fun _ =>
    ContinuesPlay.bind (Action.agreesUpTo_apply h a) fun e => ?_
  cases e with
  | proceed => exact fun w w' hw => ⟨rfl, fun _ => hw⟩
  | reload =>
    -- the surface is made anew in both worlds, and what was in front of the lines is gone
    intro w w' hw
    have hremount (q : Run) {v : World σ} (hv : v.IsCalm) :
        ((do q.remount a; pure .reload : Act σ Effect).exec v).1 = .ok .reload := by
      have hsucceeds : (q.remount a).Succeeds v fun _ _ => True := by
        refine Act.Succeeds.bind (P := fun _ u => u.IsCalm) ⟨_, _, rfl, hv⟩ fun _ u hu => ?_
        exact (Act.succeeds_remake hu).mono fun _ _ _ => trivial
      obtain ⟨_, u, hexec, -⟩ := hsucceeds
      rw [Act.exec_bind, hexec]
      rfl
    exact ⟨(hremount r hw.calm).trans (hremount r' hw.calm').symm,
      fun h => (h (hremount r' hw.calm')).elim⟩

/-! ## Beginning and ending -/

/-- A world like another one in which lines and images were taken away, but for records and for what
observers were told and have printed. -/
structure IsAnew (w u : World σ) : Prop where
  /-- Lines and images were taken away. -/
  surface : u.surface = w.surface.cleared
  /-- The storage and the files are the same. -/
  shelf : u.shelf = w.shelf
  /-- The random numbers to come are the same. -/
  draws : u.draws = w.draws
  /-- The same time has passed. -/
  clock : u.clock = w.clock
  /-- The host is in the same state. -/
  host : u.host = w.host
  /-- The same waiting times have passed and hosts did the same. -/
  dealings : u.dealings = w.dealings
  /-- No observer fails. -/
  calm : u.IsCalm

/-- A run begins in a calm world with lines and images taken away. -/
theorem exists_begin (r : Run) {w : World σ} (hcalm : w.IsCalm) :
    ∃ r' u, r.begin.exec w = (.ok r', u) ∧ r'.index = r.index ∧ IsAnew w u := by
  have hcleared : World.IsCalm { r.numbered w with surface := w.surface.cleared } := hcalm
  obtain ⟨v, houtput, hquiet, hdealings⟩ := Act.tells_notify .output _ hcleared
  obtain ⟨u, himages, hquiet', hdealings'⟩ :=
    Act.tells_notify .images v (hcleared.of_sublist hquiet.listeners)
  have hclear : Act.clear.exec (r.numbered w) = (.ok ⟨⟩, u) := by
    unfold Act.clear Act.change
    simp only [Act.exec_bind, Act.exec_modify]
    have houtput' : (Act.notify .output).exec
        { r.numbered w with surface := (r.numbered w).surface.cleared } = (.ok ⟨⟩, v) := houtput
    rw [houtput']
    exact himages
  have hboth := Act.Frame.trans hquiet hquiet'
  refine ⟨{ r with id := idOf (w.runIds + 1), since := w.clock }, u, ?_, rfl, ?_⟩
  · rw [exec_begin, hclear]
    rfl
  · exact ⟨hboth.surface, hboth.same World.shelf fun _ _ _ => rfl,
      hboth.same World.draws fun _ _ _ => rfl, hboth.same World.clock fun _ _ _ => rfl,
      hboth.same World.host fun _ _ _ => rfl, hdealings'.trans hdealings,
      hcleared.of_sublist hboth.listeners⟩

/-- Two runs that begin in one world leave worlds that are the same for their actions. -/
theorem IsAnew.continues {w u u' : World σ} (hu : IsAnew w u) (hu' : IsAnew w u') :
    u.Continues [] [] u' where
  surface := hu.surface.trans hu'.surface.symm
  shelf := hu.shelf.trans hu'.shelf.symm
  draws := hu.draws.trans hu'.draws.symm
  clock := hu.clock.trans hu'.clock.symm
  host := hu.host.trans hu'.host.symm
  dealings := hu.dealings.trans hu'.dealings.symm
  calm := hu.calm
  calm' := hu'.calm

/-- A run that goes on where another one begins has its lines and images in front. -/
theorem IsAnew.continues_behind {w w' u : World σ} (hw : w.Continues [] [] w')
    (hu : IsAnew w' u) : w.Continues w'.surface.output w'.surface.images u where
  surface := by
    rw [hw.surface, hu.surface]
    simp [SurfaceState.behind, SurfaceState.cleared]
  shelf := hw.shelf.trans hu.shelf.symm
  draws := hw.draws.trans hu.draws.symm
  clock := hw.clock.trans hu.clock.symm
  host := hw.host.trans hu.host.symm
  dealings := hw.dealings.trans hu.dealings.symm
  calm := hw.calm
  calm' := hu.calm

/-- A run ends, which makes no difference to the first of two worlds. -/
theorem continues_closing_left {x : Replay σ} {w : World σ} (hw : x.world.Continues lines images w)
    (r : Run) : (r.closing x).Continues lines images w := by
  unfold closing
  split
  · exact { hw with }
  · exact { hw with }
  · exact { hw with }

/-- A run ends, which makes no difference to the second of two worlds. -/
theorem continues_closing_right {y : Replay σ} {w : World σ}
    (hw : w.Continues lines images y.world) (r : Run) : w.Continues lines images (r.closing y) := by
  unfold closing
  split
  · exact { hw with }
  · exact { hw with }
  · exact { hw with }

/-- A run leaves the waiting time as it is. -/
theorem pacing_course (ms : Nat) (r : Run) (w : World σ) :
    (r.course h ms w).world.sequencer.pacing = w.sequencer.pacing := by
  have hbegin := r.pacing_begin w
  unfold course
  generalize r.begin.exec w = out at hbegin ⊢
  obtain ⟨res, u⟩ := out
  cases res with
  | error f => exact hbegin
  | ok r' =>
    refine Eq.trans ?_ hbegin
    have hreplay := replay_respects (fun i a => pacing_play (h := h) ms { r' with index := i } a)
      r.remaining (i := r'.index) (w := u)
    dsimp only [remainder, closing]
    split
    · exact hreplay
    · exact hreplay
    · exact hreplay

/-- An action is played by a run at a position. -/
def playAt (h : Host σ) (ms : Nat) (r : Run) (i : Nat) (a : Action) : Act σ Effect :=
  ({ r with index := i } : Run).play h ms a

/-- In a calm world a run begins and replays its actions. -/
theorem exists_course (h : Host σ) (ms : Nat) (r : Run) {w : World σ} (hcalm : w.IsCalm) :
    ∃ r' u, IsAnew w u ∧ r.course h ms w = remainder h ms r' r.remaining u := by
  obtain ⟨r', u, hbegin, -, hanew⟩ := r.exists_begin hcalm
  refine ⟨r', u, hanew, ?_⟩
  unfold course
  rw [hbegin]

/-- Runs replay the same actions with the same result. -/
theorem continues_replay_play (ms : Nat) (r r' : Run) (actions : List Action) {i j : Nat}
    {w w' : World σ} (hw : w.Continues lines images w') :
    (replay (r.playAt h ms) i actions w).Continues lines images
      (replay (r'.playAt h ms) j actions w') :=
  continues_replay (fun i j a => continues_play { r with index := i } { r' with index := j } ms a)
    actions hw

/-- **A run of actions and then more of them goes like two runs.** As long as no observer fails, the
following holds for every waiting time. When a run of some actions applies all of them and reloads
nothing, and a run of more actions behind it reloads nothing either, then one run of all these
actions has the result of the second run. It leaves the same storage, the same host and the same
random numbers; the same waiting times have passed and hosts did the same in the same order; and the
surface is the same, except that the lines and images of the first run stand in front of those of
the second. -/
theorem goes_like_two_runs (h : Host σ) (ms : Int) {w₀ : World σ} (hcalm : w₀.IsCalm)
    {x y z : Workflow} (hx : x.actions ≠ []) (hy : y.actions ≠ [])
    (hz : z.actions = x.actions ++ y.actions) :
    let w := w₀.withPacing ms
    let first := (ofWorkflow (some x)).course h ms.toNat w
    let second := (ofWorkflow (some y)).course h ms.toNat first.world
    let whole := (ofWorkflow (some z)).course h ms.toNat w
    first.result = .ok .proceed → second.result ≠ .ok .reload →
      (complete h (some x)).exec w = (.ok (), first.world) ∧
      (complete h (some y)).exec first.world = (second.result.map fun _ => (), second.world) ∧
      (complete h (some z)).exec w = (second.result.map fun _ => (), whole.world) ∧
      whole.world.Continues first.world.surface.output first.world.surface.images
        second.world := by
  intro w first second whole hfirst hsecond
  have hw : w.IsCalm := hcalm
  have hms : first.world.sequencer.pacing = ms.toNat := pacing_course ms.toNat _ w
  have hz' : z.actions ≠ [] := by simp [hz, hx]
  obtain ⟨rx, v₀, hanewx, hfirstEq⟩ := exists_course h ms.toNat (ofWorkflow (some x)) hw
  obtain ⟨rz, u₀, hanewz, hwholeEq⟩ := exists_course h ms.toNat (ofWorkflow (some z)) hw
  -- both runs that begin in the first world apply the first actions alike
  have hfront : (replay (rz.playAt h ms.toNat) rz.index x.actions u₀).Continues [] []
      (replay (rx.playAt h ms.toNat) rx.index x.actions v₀) :=
    continues_replay_play ms.toNat rz rx x.actions (hanewz.continues hanewx)
  have hproceed : (replay (rx.playAt h ms.toNat) rx.index x.actions v₀).result = .ok .proceed := by
    have hresult : first.result = _ := congrArg Replay.result hfirstEq
    exact hresult.symm.trans hfirst
  have hbetween : (replay (rz.playAt h ms.toNat) rz.index x.actions u₀).world.Continues [] []
      first.world := by
    have hworld : first.world = _ := congrArg Replay.world hfirstEq
    rw [hworld]
    exact continues_closing_right (hfront.world (by rw [hproceed]; nofun)) rx
  -- one of them goes on, and another run begins behind the other one
  obtain ⟨ry, v₁, hanewy, hsecondEq⟩ :=
    exists_course h ms.toNat (ofWorkflow (some y)) hbetween.calm'
  generalize hu₁ : (replay (rz.playAt h ms.toNat) rz.index x.actions u₀).world = u₁ at hbetween
  have hback : (replay (rz.playAt h ms.toNat) (rz.index + x.actions.length) y.actions u₁).Continues
      first.world.surface.output first.world.surface.images
      (replay (ry.playAt h ms.toNat) ry.index y.actions v₁) :=
    continues_replay_play ms.toNat rz ry y.actions (hanewy.continues_behind hbetween)
  obtain ⟨hresult, hworld⟩ := replay_append x.actions y.actions (hfront.result.trans hproceed) hu₁
  have hsecondResult : second.result = _ := congrArg Replay.result hsecondEq
  have hsecondWorld : second.world = _ := congrArg Replay.world hsecondEq
  have hremaining : (ofWorkflow (some z)).remaining = x.actions ++ y.actions := hz
  rw [hremaining] at hwholeEq
  have hwholeResult : whole.result = _ := congrArg Replay.result hwholeEq
  have hwholeWorld : whole.world = _ := congrArg Replay.world hwholeEq
  have houtcome : whole.result = second.result :=
    (hwholeResult.trans hresult).trans (hback.result.trans hsecondResult.symm)
  refine ⟨?_, complete_eq_course hms hy, ?_, ?_⟩
  · have hcomplete : (complete h (some x)).exec w = (first.result.map fun _ => (), first.world) :=
      complete_eq_course rfl hx
    rw [hcomplete, hfirst]
    rfl
  · have hcomplete : (complete h (some z)).exec w = (whole.result.map fun _ => (), whole.world) :=
      complete_eq_course rfl hz'
    rw [hcomplete, houtcome]
  · rw [hwholeWorld, hsecondWorld]
    refine continues_closing_left (continues_closing_right ?_ ry) rz
    have hworlds := hback.world (hsecondResult ▸ hsecond)
    rw [← hworld] at hworlds
    exact hworlds

/-- A line and a dialog, and then an image, a question and a request to close the surface that
breaks the host: one run of all of them ends like the second of two runs. -/
theorem goes_like_two_runs_to_failure :
    let x : Workflow := ⟨"Go", [⟨"a1", .showText, some [("text", "Hi")]⟩, ⟨"a2", .alert, none⟩]⟩
    let y : Workflow := ⟨"On", [⟨"b1", .showImage, some [("url", "a.png")]⟩,
      ⟨"b2", .promptAndShow, none⟩, ⟨"b3", .closeWindow, none⟩]⟩
    let z : Workflow := ⟨"All", x.actions ++ y.actions⟩
    let w₀ : World HostScript := {
      surface := .fresh, listeners := [Streaming.listener], shelf := ⟨.memory [], ⟨[], [], []⟩⟩
      host := { answers := [some "me"], broken := ["close"] }, sequencer := .paced 0 }
    let w := w₀.withPacing 5
    w₀.IsCalm ∧ ∃ first second whole : World HostScript,
      (complete HostScript.host (some x)).exec w = (.ok (), first) ∧
      (complete HostScript.host (some y)).exec first =
        (.error ⟨.invalid, "close crashed"⟩, second) ∧
      (complete HostScript.host (some z)).exec w =
        (.error ⟨.invalid, "close crashed"⟩, whole) ∧
      whole.Continues first.surface.output first.surface.images second := by
  intro x y z w₀ w
  have hcalm : w₀.IsCalm := by
    intro l hl
    rw [List.mem_singleton.mp hl]
    exact Streaming.neverFails_listener
  have hx : x.actions ≠ [] := by simp [x]
  have hy : y.actions ≠ [] := by simp [y]
  have hparts := goes_like_two_runs HostScript.host 5 hcalm hx hy (z := z) rfl
  have hfirst : ((ofWorkflow (some x)).course HostScript.host (Int.toNat 5) w).result =
      .ok .proceed := by decide
  have hsecond : ((ofWorkflow (some y)).course HostScript.host (Int.toNat 5)
      ((ofWorkflow (some x)).course HostScript.host (Int.toNat 5) w).world).result =
        .error ⟨.invalid, "close crashed"⟩ := by decide +kernel
  have hne : ((ofWorkflow (some y)).course HostScript.host (Int.toNat 5)
      ((ofWorkflow (some x)).course HostScript.host (Int.toNat 5) w).world).result ≠
        .ok .reload := by
    rw [hsecond]
    nofun
  obtain ⟨hfirstRun, hsecondRun, hwholeRun, hworlds⟩ := hparts hfirst hne
  rw [hsecond] at hsecondRun hwholeRun
  exact ⟨hcalm, _, _, _, hfirstRun, hsecondRun, hwholeRun, hworlds⟩

end Run

end PushButton
