import PushButton.Proofs.Host.Forgetting
import PushButton.Proofs.Run.History

/-!
# Runs that are given up leave no trace

Runs are not all that is done on a surface: workflows are run as a whole, actions are applied, and
the storage is used. When a run that was left somewhere in the middle is given up, whatever is done
without it from then on goes as if it had been left there for ever.
-/

namespace PushButton

variable {σ α : Type}

/-! ## What is done on a surface -/

/-- Something that is done on a surface with its runs. -/
inductive Errand where
  /-- A turn of the runs is taken. -/
  | turn (t : Turn)
  /-- A workflow is run as a whole. -/
  | complete (workflow : Option Workflow)
  /-- An action is applied outside of all runs. -/
  | apply (a : Action)
  /-- A workflow, or the one stored under a key, is run on a surface of its own. -/
  | standalone (color key : Text) (given : Option Workflow)
  /-- The storage is used, or the files: something is answered, and records may be made. -/
  | use (f : Shelf → Except Failure Json × Shelf × List Record)

/-- What comes of it. -/
inductive Answer where
  /-- How far the run has come, where one goes on or fails. -/
  | turned (progress : Option Progress)
  /-- How a complete run has ended. -/
  | completed (result : Except Failure Unit)
  /-- What an applied action means. -/
  | applied (result : Except Failure Effect)
  /-- What a surface of its own shows, where there was something to run. -/
  | seen (result : Except Failure (Option SurfaceState))
  /-- What the storage has answered. -/
  | used (result : Except Failure Json)

namespace Errand

/-- The run that is meant, where it is one that was started before. -/
def run? : Errand → Option Nat
  | .turn (.resume k) | .turn (.cancel k) | .turn (.close k) => some k
  | _ => none

end Errand

namespace Traffic

/-- How far the run of a turn has come. A run that is left after every action and is not inside one
is closed without an answer. -/
def progress (h : Host σ) (t : Traffic σ) : Turn → Option Progress
  | .start _ _ => none
  | .resume k => t.runs[k]?.map fun s => ((s.run.advance h s.pauses).run t.world).1.2
  | .cancel k | .close k => t.runs[k]?.bind fun s =>
    if s.stepwise && s.run.isBetween then none else some ((s.run.cancel h).run t.world).1.2

/-- A step is taken outside of the runs. -/
def through (t : Traffic σ) (act : Act σ α) (answer : Except Failure α → Answer) :
    Answer × Traffic σ :=
  (answer (act.exec t.world).1, { t with world := (act.exec t.world).2 })

/-- Something is done. -/
def carryOut (h : Host σ) (t : Traffic σ) : Errand → Answer × Traffic σ
  | .turn turn => (.turned (t.progress h turn), t.take h turn)
  | .complete workflow => t.through (Run.complete h workflow) .completed
  | .apply a => t.through (a.apply h) .applied
  | .standalone color key given => t.through (Run.standalone h color key given) .seen
  | .use f =>
    let (result, shelf, records) := f t.world.shelf
    (.used result, { t with world := { t.world with shelf := shelf }.after (records.map .logged) })

/-- Errands are carried out one after the other. -/
def carryOutAll (h : Host σ) (t : Traffic σ) (errands : List Errand) : Traffic σ :=
  errands.foldl (fun t e => (t.carryOut h e).2) t

end Traffic

/-- What is seen of an errand: what comes of it, and what there is behind it. -/
structure Sight where
  /-- What comes of it. -/
  answer : Answer
  /-- The surface. -/
  surface : SurfaceState
  /-- The storage and the files. -/
  shelf : Shelf
  /-- The random numbers to come. -/
  draws : List Nat
  /-- Milliseconds that have passed. -/
  clock : Nat
  /-- The number of runs that have begun. -/
  started : Nat
  /-- What has happened. -/
  events : List Occurrence

namespace Traffic

/-- What is seen of an errand that leads from one situation to another one. -/
def sight (t t' : Traffic σ) (answer : Answer) : Sight where
  answer := answer
  surface := t'.world.surface
  shelf := t'.world.shelf
  draws := t'.world.draws
  clock := t'.world.clock
  started := t'.world.sequencer.started
  events := t'.world.since t.world.past.length

/-- What is seen of errands that are carried out one after the other. -/
def sights (h : Host σ) (t : Traffic σ) : List Errand → List Sight
  | [] => []
  | e :: rest => t.sight (t.carryOut h e).2 (t.carryOut h e).1 :: sights h (t.carryOut h e).2 rest

/-! ## Situations that go on in unison -/

/-- Two situations go on in unison, with the same runs but for one that is left out. -/
structure InUnison (E : σ → σ → Prop) (past past' : List Occurrence) (out : Option Nat)
    (t t' : Traffic σ) : Prop where
  /-- The worlds go on in unison. -/
  world : t.world.InUnison E past past' t'.world
  /-- As many runs were started. -/
  length : t.runs.length = t'.runs.length
  /-- The runs are the same. -/
  runs : ∀ j, some j ≠ out → t.runs[j]? = t'.runs[j]?

section Unison

variable {E : σ → σ → Prop} {past past' : List Occurrence} {out : Option Nat} {h : Host σ}
  {t t' : Traffic σ}

/-- What is done with a run that is the same is the same. -/
theorem InUnison.drive (ht : t.InUnison E past past' out t') {k : Nat} (hk : some k ≠ out)
    {f : StartedRun → StateM (World σ) Run} (hf : ∀ s, Run.GoesInUnison E past past' (f s)) :
    (t.drive k f).InUnison E past past' out (t'.drive k f) := by
  have hruns := ht.runs k hk
  cases hs : t.runs[k]? with
  | none =>
    rw [hs] at hruns
    unfold Traffic.drive
    rw [hs, ← hruns]
    exact ht
  | some s =>
    obtain ⟨hrun, hworlds⟩ := hf s t.world t'.world ht.world
    rw [drive_of_getElem? hs, drive_of_getElem? (hruns.symm.trans hs), hrun]
    refine ⟨hworlds, ?_, fun j hj => ?_⟩
    · rw [List.length_set, List.length_set, ht.length]
    · rw [List.getElem?_set, List.getElem?_set, ht.length, ht.runs j hj]

/-- A step outside of the runs is the same. -/
theorem InUnison.through (ht : t.InUnison E past past' out t') {act : Act σ α}
    (hact : Act.AgreesUpTo (World.InUnison E past past') act act)
    (answer : Except Failure α → Answer) :
    (t.through act answer).1 = (t'.through act answer).1 ∧
      (t.through act answer).2.InUnison E past past' out (t'.through act answer).2 := by
  obtain ⟨hresult, hworlds⟩ := hact t.world t'.world ht.world
  exact ⟨congrArg answer hresult, { ht with world := hworlds }⟩

/-- What is seen of steps that are the same is the same. -/
theorem InUnison.sight {u u' : Traffic σ} (ht : t.InUnison E past past' out t')
    (hu : u.InUnison E past past' out u') (answer : Answer) :
    t.sight u answer = t'.sight u' answer := by
  unfold Traffic.sight
  rw [hu.world.surface, hu.world.shelf, hu.world.draws, hu.world.clock, hu.world.started,
    ht.world.since hu.world]

variable [h.Forgets E]

/-- A run is given up in the same way. -/
theorem goesInUnison_giveUp (s : StartedRun) : Run.GoesInUnison E past past' (giveUp h s) := by
  unfold giveUp
  split
  · exact Run.goesInUnison_close s.run
  · exact (Run.goesInUnison_cancel h s.run).map _

/-- A turn of a run that is the same is the same. -/
theorem InUnison.take (ht : t.InUnison E past past' out t') {turn : Turn}
    (hturn : ∀ k, (Errand.turn turn).run? = some k → some k ≠ out) :
    t.progress h turn = t'.progress h turn ∧
      (t.take h turn).InUnison E past past' out (t'.take h turn) := by
  have hgivenUp (k : Nat) (hk : some k ≠ out) :
      t.progress h (.cancel k) = t'.progress h (.cancel k) ∧
      (t.drive k (giveUp h)).InUnison E past past' out (t'.drive k (giveUp h)) := by
    refine ⟨?_, ht.drive hk goesInUnison_giveUp⟩
    unfold progress
    dsimp only
    rw [← ht.runs k hk]
    refine congrArg (Option.bind t.runs[k]?) (funext fun s => ?_)
    rw [(Run.goesInUnison_cancel h s.run _ _ ht.world).1]
  cases turn with
  | start workflow stepwise =>
    refine ⟨rfl, ht.world, ?_, fun j hj => ?_⟩
    · change (t.runs ++ [_]).length = (t'.runs ++ [_]).length
      rw [List.length_append, List.length_append, ht.length]
    · change (t.runs ++ [_])[j]? = (t'.runs ++ [_])[j]?
      rw [List.getElem?_append, List.getElem?_append, ht.length, ht.runs j hj]
  | resume k =>
    have hk := hturn k rfl
    refine ⟨?_, ht.drive hk fun s => (Run.goesInUnison_advance h s.pauses s.run).map _⟩
    unfold progress
    dsimp only
    rw [← ht.runs k hk]
    refine congrArg (fun f => Option.map f t.runs[k]?) (funext fun s => ?_)
    rw [(Run.goesInUnison_advance h s.pauses s.run _ _ ht.world).1]
  | cancel k => exact hgivenUp k (hturn k rfl)
  | close k => exact hgivenUp k (hturn k rfl)

/-- An errand without the run that is left out is the same, and its answer too. -/
theorem InUnison.carryOut (ht : t.InUnison E past past' out t') {e : Errand}
    (he : ∀ k, e.run? = some k → some k ≠ out) :
    (t.carryOut h e).1 = (t'.carryOut h e).1 ∧
      (t.carryOut h e).2.InUnison E past past' out (t'.carryOut h e).2 := by
  cases e with
  | turn turn =>
    obtain ⟨hprogress, htaken⟩ := ht.take (h := h) he
    exact ⟨congrArg Answer.turned hprogress, htaken⟩
  | complete workflow => exact ht.through (Run.agreesInUnison_complete h workflow) _
  | apply a => exact ht.through (Action.agreesUpTo_apply h a) _
  | standalone color key given =>
    exact ht.through (Run.agreesInUnison_standalone h color key given) _
  | use f =>
    unfold Traffic.carryOut
    dsimp only
    rw [ht.world.shelf]
    have hworld := World.Likeness.with_shelf (f t'.world.shelf).2.1 ht.world
    exact ⟨rfl, { ht with world := hworld.after _ }⟩

/-- The same is seen of errands without the run that is left out, and behind them the situations are
in unison. The induction is on the errands. -/
theorem InUnison.carryOutAll (ht : t.InUnison E past past' out t') (errands : List Errand)
    (herrands : ∀ e ∈ errands, ∀ k, e.run? = some k → some k ≠ out) :
    t.sights h errands = t'.sights h errands ∧
      (t.carryOutAll h errands).InUnison E past past' out (t'.carryOutAll h errands) := by
  induction errands generalizing t t' with
  | nil => exact ⟨rfl, ht⟩
  | cons e rest ih =>
    obtain ⟨hanswer, hnext⟩ := ht.carryOut (h := h) (herrands e (by simp))
    obtain ⟨hrest, hend⟩ := ih hnext fun e' he' => herrands e' (by simp [he'])
    refine ⟨?_, hend⟩
    unfold sights
    rw [hrest, hanswer, ht.sight hnext]

end Unison

end Traffic

/-! ## A run is given up -/

namespace Run

/-- A run that has begun and was left: it waits, or the host is asked, or an action was applied. -/
def IsSuspended (r : Run) : Prop := r.phase ≠ .fresh ∧ r.phase ≠ .ended

/-- What a host is left with when a run is given up in a world, and what happens then: a run for
which the host is asked gives up its request, and it is recorded how long its action took. -/
def parting (h : Host σ) (r : Run) (w : World σ) : σ × List Occurrence :=
  match r.phase, r.remaining with
  | .asking q since, a :: _ => ((h.abandon q w.host).1,
      (h.abandon q w.host).2 ++ [.logged (Duration.record a.kind.name "DEBUG" since w.clock)])
  | _, _ => (w.host, [])

/-- The world that a run leaves behind when it is given up: one run less is active. -/
def parted (h : Host σ) (r : Run) (w : World σ) : World σ :=
  { w with host := (r.parting h w).1, sequencer := release w.sequencer }.after (r.parting h w).2

/-- A run that is cancelled inside an action or in front of one is cancelled there: nothing catches
that, and no other action is begun. -/
theorem run_cancel (h : Host σ) {r : Run} (hsound : r.IsSound) (hinside : r.isBetween = false)
    (w : World σ) : (r.cancel h).run w =
      (({ r with phase := .ended }, .failed ⟨.cancelled, []⟩), r.parted h w) := by
  unfold cancel parted parting
  cases hph : r.phase with
  | pacing =>
    dsimp only
    rw [run_within, Act.exec_throw]
    rfl
  | asking q since =>
    obtain ⟨a, rest, hrem, -⟩ := hsound q since hph
    rw [hrem]
    dsimp only
    have hafter (u : World σ) (os os' : List Occurrence) :
        (u.after os).after os' = u.after (os ++ os') := by
      unfold World.after
      rw [List.reverse_append, List.append_assoc]
    rw [run_within, Action.exec_timed, Act.exec_bind, Act.exec_abandon]
    dsimp only
    rw [Act.exec_throw, hafter, ← hrem]
    rfl
  | fresh | between | reloaded | ended =>
    unfold isBetween at hinside
    rw [hph] at hinside
    cases hinside

/-- A run that is closed between two actions ends there. -/
theorem run_close (h : Host σ) {r : Run} (hsuspended : r.IsSuspended)
    (hbetween : r.isBetween = true) (w : World σ) :
    r.close.run w = ({ r with phase := .ended }, r.parted h w) := by
  obtain ⟨hfresh, hended⟩ := hsuspended
  unfold close parted parting
  cases hph : r.phase with
  | between => rfl
  | reloaded => rfl
  | fresh => exact (hfresh hph).elim
  | ended => exact (hended hph).elim
  | pacing | asking =>
    unfold isBetween at hbetween
    rw [hph] at hbetween
    cases hbetween

end Run

namespace Traffic

/-- The runs are sound behind every errand. -/
theorem isSound_carryOut {h : Host σ} {t : Traffic σ} (hsound : ∀ s ∈ t.runs, s.run.IsSound)
    (e : Errand) : ∀ s ∈ (t.carryOut h e).2.runs, s.run.IsSound := by
  cases e with
  | turn turn =>
    have hist : History h t [] t := .nil
    obtain ⟨ds, hist'⟩ := hist.take hsound turn
    exact hist'.isSound hsound
  | complete | apply | standalone | use => exact hsound

/-- The runs are sound behind all errands. The induction is on the errands. -/
theorem isSound_carryOutAll {h : Host σ} {t : Traffic σ} (hsound : ∀ s ∈ t.runs, s.run.IsSound)
    (errands : List Errand) : ∀ s ∈ (t.carryOutAll h errands).runs, s.run.IsSound := by
  induction errands generalizing t with
  | nil => exact hsound
  | cons e rest ih => exact ih (isSound_carryOut hsound e)

/-- What a run that is given up leaves behind: its world without it, and the other runs. -/
theorem take_giveUp (h : Host σ) {t : Traffic σ} {k : Nat} {s : StartedRun}
    (hs : t.runs[k]? = some s) (hsound : s.run.IsSound) (hsuspended : s.run.IsSuspended)
    {turn : Turn} (hturn : turn = .cancel k ∨ turn = .close k) :
    t.take h turn = ⟨s.run.parted h t.world,
      t.runs.set k { s with run := { s.run with phase := .ended } }⟩ := by
  have hgiveUp : (giveUp h s).run t.world =
      ({ s.run with phase := .ended }, s.run.parted h t.world) := by
    unfold giveUp
    by_cases hbetween : s.run.isBetween = true
    · rw [if_pos hbetween]
      exact Run.run_close h hsuspended hbetween t.world
    · rw [if_neg hbetween, StateT.run_map, Run.run_cancel h hsound (by simpa using hbetween)]
      rfl
  rw [take_eq_drive_giveUp hturn, drive_of_getElem? hs, hgiveUp]

/-- Nothing happens when a run is given up but records and calls to a page. -/
theorem isAside_parting (h : Host σ) (E : σ → σ → Prop) [h.Forgets E] (r : Run) (w : World σ) :
    ∀ o ∈ (r.parting h w).2, o.isAside = true := by
  unfold Run.parting
  split
  · intro o ho
    obtain ho | ho := List.mem_append.mp ho
    · exact Host.Forgets.aside (E := E) _ w.host o ho
    · rw [List.mem_singleton.mp ho]
      rfl
  · nofun

/-- The host forgets that a run was given up. -/
theorem forgets_parting {h : Host σ} {E : σ → σ → Prop} [h.Forgets E] (r : Run) {w : World σ}
    (hhost : E w.host w.host) : E w.host (r.parting h w).1 := by
  unfold Run.parting
  split
  · exact Host.Forgets.forgets _ hhost
  · exact hhost

/-- The situation in which a run was left goes on in unison with the one in which it is given up. -/
theorem inUnison_parted {h : Host σ} {E : σ → σ → Prop} [h.Forgets E] {t : Traffic σ} (k : Nat)
    (s s' : StartedRun) (hhost : E t.world.host t.world.host)
    (hblind : ∀ l ∈ t.world.listeners, l.IgnoresAsides) :
    t.InUnison E t.world.past (s.run.parted h t.world).past (some k)
      ⟨s.run.parted h t.world, t.runs.set k s'⟩ := by
  have hpast : (s.run.parted h t.world).past =
      (s.run.parting h t.world).2.reverse ++ t.world.past := rfl
  have hasides : (s.run.parting h t.world).2.reverse.filter (!·.isAside) = [] := by
    rw [List.filter_eq_nil_iff]
    intro o ho
    rw [isAside_parting h E s.run t.world o (List.mem_reverse.mp ho)]
    nofun
  refine ⟨?_, List.length_set.symm, fun j hj => ?_⟩
  · refine ⟨rfl, rfl, rfl, rfl, rfl, rfl, forgets_parting s.run hhost, rfl, rfl, ⟨[], rfl, rfl⟩, ?_,
      hblind⟩
    rw [hpast, List.filter_append, hasides, List.nil_append]
  · rw [List.getElem?_set_ne fun hkj => hj (congrArg some hkj.symm)]

end Traffic

/-- The observer that prints the lines looks neither at records nor at calls to a page. -/
theorem Streaming.ignoresAsides_listener : Streaming.listener.IgnoresAsides :=
  Streaming.react_filter fun _ _ _ _ => rfl

/-- **A run that is given up leaves no trace.** A run that has begun and was left in the middle may
be cancelled or closed there at any moment of any session. It ends: where it is inside an action or
in front of one nothing catches that it is cancelled. The surface, the storage, the random numbers
to come, the observers and the other runs stay exactly as they were; nobody is told anything, and
the host is asked nothing but to give up a request that waits, which makes no difference to it. What
is done without the run from then on has the same answers, shows the same surface and the same
storage, and lets the same happen as if the run had been left where it was for ever. -/
theorem Traffic.leaves_no_trace (h : Host σ) {E : σ → σ → Prop} [h.Forgets E] {w₀ : World σ}
    (hhost : E w₀.host w₀.host) (hblind : ∀ l ∈ w₀.listeners, l.IgnoresAsides)
    (before : List Errand) {k : Nat} {s : StartedRun}
    (hs : (Traffic.carryOutAll h ⟨w₀, []⟩ before).runs[k]? = some s)
    (hsuspended : s.run.IsSuspended) {turn : Turn} (hturn : turn = .cancel k ∨ turn = .close k) :
    let t := Traffic.carryOutAll h ⟨w₀, []⟩ before
    (t.take h turn = ⟨s.run.parted h t.world,
        t.runs.set k { s with run := { s.run with phase := .ended } }⟩ ∧
      E t.world.host (s.run.parting h t.world).1 ∧
      (∀ o ∈ (s.run.parting h t.world).2, o.isAside = true) ∧
      ((∀ q since, s.run.phase ≠ .asking q since) → s.run.parting h t.world = (t.world.host, [])) ∧
      (s.run.isBetween = false → t.progress h turn = some (.failed ⟨.cancelled, []⟩))) ∧
    ∀ later : List Errand, (∀ e ∈ later, e.run? ≠ some k) →
      t.sights h later = (t.take h turn).sights h later ∧
      (∀ j, j ≠ k →
        (t.carryOutAll h later).runs[j]? = ((t.take h turn).carryOutAll h later).runs[j]?) ∧
      E (t.carryOutAll h later).world.host ((t.take h turn).carryOutAll h later).world.host := by
  intro t
  have hsound : s.run.IsSound :=
    Traffic.isSound_carryOutAll (h := h) (t := ⟨w₀, []⟩) nofun before s (List.mem_of_getElem? hs)
  have hself : Traffic.InUnison E w₀.past w₀.past none ⟨w₀, []⟩ ⟨w₀, []⟩ :=
    ⟨⟨rfl, rfl, rfl, rfl, rfl, rfl, hhost, rfl, rfl, ⟨[], rfl, rfl⟩, rfl, hblind⟩, rfl,
      fun _ _ => rfl⟩
  obtain ⟨-, hreached⟩ := hself.carryOutAll (h := h) before fun _ _ _ _ => nofun
  have hworld : E t.world.host t.world.host := hreached.world.host
  have htake := Traffic.take_giveUp h hs hsound hsuspended hturn
  refine ⟨⟨htake, Traffic.forgets_parting s.run hworld, Traffic.isAside_parting h E s.run t.world,
    fun hasking => ?_, fun hinside => ?_⟩, fun later hlater => ?_⟩
  · unfold Run.parting
    split
    · next q since _ _ hph _ => exact (hasking q since hph).elim
    · rfl
  · have hcancel : t.progress h (.cancel k) = some (.failed ⟨.cancelled, []⟩) := by
      unfold Traffic.progress
      dsimp only
      rw [hs, Option.bind_some, hinside, Bool.and_false, Run.run_cancel h hsound hinside]
      rfl
    obtain rfl | rfl := hturn
    · exact hcancel
    · exact hcancel
  · have hunison := Traffic.inUnison_parted (h := h) k s
      { s with run := { s.run with phase := .ended } } hworld hreached.world.blind
    rw [← htake] at hunison
    obtain ⟨hsights, hend⟩ := hunison.carryOutAll (h := h) later fun e he j hj hjk =>
      hlater e he (hj.trans hjk)
    exact ⟨hsights, fun j hj => hend.runs j fun hjk => hj (Option.some.inj hjk), hend.world.host⟩

/-- A run that waits for an answer is cancelled, and another run that waits gets the answer. -/
theorem Traffic.leaves_no_trace_of_question :
    let asks : Workflow := ⟨"Go", [⟨"a1", .promptAndShow, none⟩]⟩
    let w : World HostScript := {
      surface := .fresh, shelf := ⟨.memory [], ⟨[], [], []⟩⟩, sequencer := .paced 0
      listeners := [Streaming.listener]
      host := { answers := [some "Eve"], suspended := ["prompt"] } }
    let t := Traffic.carryOutAll HostScript.host ⟨w, []⟩ [.turn (.start (some asks) false),
      .turn (.start (some asks) false), .turn (.resume 0), .turn (.resume 1)]
    let t' := t.take HostScript.host (.cancel 0)
    t.progress HostScript.host (.cancel 0) = some (.failed ⟨.cancelled, []⟩) ∧
      t'.world.host.answers = [some ("Eve" : Text)] ∧
      t.sights HostScript.host [.turn (.resume 1)] = t'.sights HostScript.host [.turn (.resume 1)] ∧
      (t'.take HostScript.host (.resume 1)).world.surface.output =
        [("You entered: Eve" : Text)] := by
  intro asks w t t'
  have hfirst : t.runs[0]?.map (·.run.phase) =
      some (.asking (.prompt "Please enter a value") 0) := by decide
  obtain ⟨s, hs, hphase⟩ := Option.map_eq_some_iff.mp hfirst
  have hsuspended : s.run.IsSuspended := by
    constructor
    · rw [hphase]
      nofun
    · rw [hphase]
      nofun
  have hinside : s.run.isBetween = false := by
    unfold Run.isBetween
    rw [hphase]
  have hblind : ∀ l ∈ w.listeners, l.IgnoresAsides := by
    intro l hl
    rw [List.mem_singleton.mp hl]
    exact Streaming.ignoresAsides_listener
  obtain ⟨⟨-, -, -, -, hcancelled⟩, hlater⟩ := Traffic.leaves_no_trace HostScript.host
    (E := Eq) (rfl : w.host = w.host) hblind [.turn (.start (some asks) false),
      .turn (.start (some asks) false), .turn (.resume 0), .turn (.resume 1)] hs hsuspended
    (.inl rfl)
  obtain ⟨hsights, -, -⟩ := hlater [.turn (.resume 1)] fun e he => by
    rw [List.mem_singleton.mp he]
    nofun
  exact ⟨hcancelled hinside, by decide, hsights, by decide⟩

end PushButton
