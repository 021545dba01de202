import PushButton.Proofs.Log.Record
import PushButton.Proofs.Run.Announcements
import PushButton.Proofs.Run.Course
import PushButton.Run.Traffic

/-!
# What runs keep up

Actions are made of ordinary steps: they change the surface, look things up in the storage, store
texts, draw random numbers, ask the host, and make usual records that are not in the name of the
part of the program that runs workflows. So a relation between worlds and later ones that allows
these steps is respected by every action. If it also allows the records of runs, their waiting times
and their numbers, it is respected by whatever is done with runs.
-/

namespace PushButton

variable {σ α β γ : Type}

/-! ## Ordinary steps -/

/-- A usual record that is not made in the name of the part of the program that runs workflows. -/
structure Record.IsAside (r : Record) : Prop extends r.IsUsual where
  /-- Another part of the program makes it. -/
  logger_ne : r.logger ≠ Run.logger

/-- An ordinary step. -/
inductive Act.Ordinary (h : Host σ) : ∀ {α : Type}, Act σ α → Prop
  /-- A value. -/
  | pure {α : Type} (x : α) : Ordinary h (pure x)
  /-- A failure. -/
  | throw {α : Type} (f : Failure) : Ordinary h (throw f : Act σ α)
  /-- An ordinary step, and another one that may depend on its value. -/
  | bind {α β : Type} {act : Act σ α} {next : α → Act σ β} :
      Ordinary h act → (∀ x, Ordinary h (next x)) → Ordinary h (act >>= next)
  /-- An ordinary step that depends on the world, but not on observers and on what has happened. -/
  | look {α : Type} {next : World σ → Act σ α} :
      (∀ (w : World σ) ls past, next { w with listeners := ls, past := past } = next w) →
      (∀ w, Ordinary h (next w)) → Ordinary h (get >>= next)
  /-- A usual record that is not made in the name of the part of the program that runs workflows. -/
  | log (level : Level) {logger : Text} (message : Text) (context : Context) :
      Record.IsAside ⟨level, logger, message, context, none⟩ →
      Ordinary h (Act.log level logger message context)
  /-- A step about which it is recorded how long it took. -/
  | timed {α : Type} (a : Action) (since : Nat) {act : Act σ α} :
      Ordinary h act → Ordinary h (a.timed since act)
  /-- The surface is changed. -/
  | change (c : SurfaceChange) : Ordinary h c.act
  /-- A random number is drawn. -/
  | draw (bound : Nat) : Ordinary h (Act.draw bound)
  /-- A text is stored. -/
  | store (key value : Text) : Ordinary h (Act.store key value)
  /-- The host is asked. -/
  | ask (r : Request) : Ordinary h (Act.ask h r)
  /-- The host settles a request. -/
  | settle (r : Request) : Ordinary h (Act.settle h r)
  /-- A request to the host is given up. -/
  | abandon (r : Request) : Ordinary h (Act.abandon h r)

namespace Action

variable (h : Host σ)

/-- Actions make usual records in their own name. -/
theorem isAside (level : Level) (message : Text) {context : Context} (hcontext : context.IsUsed) :
    Record.IsAside ⟨level, logger, message, context, none⟩ :=
  ⟨⟨hcontext, (by decide : logger.IsPlain), rfl⟩, (by decide : logger ≠ Run.logger)⟩

/-- A failure of the storage is dealt with by an ordinary step. -/
theorem ordinary_whenUnusable (f : Failure) (wording : Text) :
    Act.Ordinary h (whenUnusable f wording) := by
  unfold whenUnusable
  split
  · exact .log _ _ _ (isAside _ _ .outside)
  · exact .throw f

/-- A text is stored by an ordinary step. -/
theorem ordinary_saveItem (key value : Text) : Act.Ordinary h (saveItem key value) := by
  unfold saveItem
  split
  · exact .pure _
  · refine .bind (.store key value) fun result => ?_
    cases result with
    | error e => exact ordinary_whenUnusable h _ _
    | ok u => exact .change (.putLine _)

/-- A text is looked up by an ordinary step. -/
theorem ordinary_showItem (key : Text) : Act.Ordinary h (showItem key) := by
  unfold showItem
  split
  · exact .pure _
  · refine .look (fun _ _ _ => rfl) fun w => ?_
    cases w.shelf.get? key with
    | error e => exact ordinary_whenUnusable h _ _
    | ok value => exact .change (.putLine _)

/-- An action that makes no request is an ordinary step. -/
theorem ordinary_perform (a : Action) : Act.Ordinary h (perform a) := by
  unfold perform
  cases a.kind with
  | showText => exact .change (.putLine _)
  | showImage =>
    dsimp only
    split
    · exact .pure _
    · exact .change (.putImage _)
  | setLocalStorage => exact ordinary_saveItem h _ _
  | getLocalStorage => exact ordinary_showItem h _
  | increaseButtonSize => exact .change (.grow _)
  | changeButtonColor =>
    dsimp only
    split
    · exact .bind (.draw _) fun n => .change (.paint _)
    · split
      · exact .pure _
      · exact .change (.paint _)
  | disableButton => exact .change .disable
  | alert | promptAndShow | refreshPage | closeWindow => exact .pure _

/-- A refusal is dealt with by an ordinary step. -/
theorem ordinary_whenRefused (f : Failure) (level : Level) (wording : Text) :
    Act.Ordinary h (whenRefused f level wording) := by
  unfold whenRefused
  split
  · exact .log _ _ _ (isAside _ _ .outside)
  · exact .throw f

/-- What a reply means is an ordinary step. -/
theorem ordinary_conclude (a : Action) (reply : Reply) : Act.Ordinary h (conclude a reply) := by
  have hproceed {act : Act σ Unit} (hact : Act.Ordinary h act) :
      Act.Ordinary h (do act; pure .proceed : Act σ Effect) := hact.bind fun _ => .pure _
  have hline (line : Text) : Act.Ordinary h (do Act.putLine line; pure .proceed : Act σ Effect) :=
    hproceed (.change (.putLine line))
  unfold conclude
  split
  · exact hproceed (ordinary_whenRefused h _ _ _)
  · exact hproceed (ordinary_whenRefused h _ _ _)
  · exact hline _
  · exact hproceed (ordinary_whenRefused h _ _ _)
  · exact .pure _
  · exact (ordinary_whenRefused h _ _ _).bind fun _ => hline _
  · exact hline _
  · exact .throw _
  · exact .pure _

/-- Settling the request of an action is an ordinary step. -/
theorem ordinary_settle (a : Action) (r : Request) (since : Nat) :
    Act.Ordinary h (a.settle h r since) :=
  .timed a since (.bind (.settle r) fun reply => ordinary_conclude h a reply)

/-- **Beginning an action is an ordinary step.** -/
theorem ordinary_start (mayWait : Bool) (a : Action) : Act.Ordinary h (a.start h mayWait) := by
  unfold start
  refine .bind (.log _ _ _ (isAside _ _ (.action _ _))) fun _ => ?_
  refine .look (fun _ _ _ => rfl) fun w => ?_
  cases a.request? with
  | none => exact .bind (.timed a w.clock (ordinary_perform h a)) fun _ => .pure _
  | some r =>
    refine .bind (.ask r) fun reply => ?_
    cases reply with
    | some reply => exact .bind (.timed a w.clock (ordinary_conclude h a reply)) fun _ => .pure _
    | none =>
      dsimp only
      split
      · exact .pure _
      · exact .bind (ordinary_settle h a r w.clock) fun _ => .pure _

/-- Applying an action is an ordinary step. -/
theorem ordinary_apply (a : Action) : Act.Ordinary h (a.apply h) := by
  refine .bind (ordinary_start h false a) fun b => ?_
  cases b with
  | applied e => exact .pure e
  | waiting r since => exact ordinary_settle h a r since

end Action

/-! ## What ordinary steps respect -/

/-- A relation between a world and a later one that ordinary steps may make use of. -/
structure Act.Allows (h : Host σ) (R : World σ → World σ → Prop) : Prop where
  /-- The surface is changed. -/
  change (c : SurfaceChange) : Respects R c.act
  /-- Usual records are made that are not in the name of the part of the program that runs
  workflows, and the storage and the random numbers to come may change. -/
  aside (rs : List Record) (hrs : ∀ r ∈ rs, r.IsAside) (w : World σ) (s : Shelf)
    (ns : List Nat) : R w ({ w with shelf := s, draws := ns }.after (rs.map .logged))
  /-- The host is asked. -/
  ask (r : Request) : Respects R (ask h r)
  /-- The host settles a request. -/
  settle (r : Request) : Respects R (settle h r)
  /-- A request is given up. -/
  abandon (r : Request) : Respects R (abandon h r)

/-- The records about stored texts are made in the name of the storage. -/
theorem Shelf.isAside_setLogged {s : Shelf} {key value : Text} {r : Record}
    (hr : r ∈ (s.setLogged key value).2.2) : r.IsAside := by
  unfold setLogged at hr
  split at hr
  · obtain rfl := List.mem_singleton.mp hr
    have hlogger : ("button_workflow.storage.local_storage" : Text).IsPlain ∧
        ("button_workflow.storage.local_storage" : Text) ≠ Run.logger := by decide
    exact ⟨⟨.outside, hlogger.1, rfl⟩, hlogger.2⟩
  · cases hr

/-- The records about durations are made in the name of the clock. -/
theorem Duration.isAside_record (label level : Text) (start now : Int) :
    (record label level start now).IsAside := by
  have hlogger : ("button_workflow.utils.timing" : Text).IsPlain ∧
      ("button_workflow.utils.timing" : Text) ≠ Run.logger := by decide
  exact ⟨⟨.outside, hlogger.1, rfl⟩, hlogger.2⟩

/-- An ordinary step respects a relation that allows ordinary steps. The induction is on how the
step is made. -/
theorem Act.Ordinary.respects {h : Host σ} {R : World σ → World σ → Prop} [Frame R]
    (hR : Act.Allows h R) {act : Act σ α} (hact : act.Ordinary h) : Respects R act := by
  induction hact with
  | pure x => exact Respects.pure x
  | throw f => exact Respects.throw f
  | bind _ _ ihact ihnext => exact ihact.bind ihnext
  | look _ _ ih => exact Respects.get.bind ih
  | log level message context haside =>
    exact fun w => hR.aside [_] (by simpa using haside) w w.shelf w.draws
  | timed a since _ ih =>
    intro w
    rw [Action.exec_timed]
    exact Frame.trans (ih w) (hR.aside [_] (by simpa using Duration.isAside_record _ _ _ _) _ _ _)
  | change c => exact hR.change c
  | draw bound => exact fun w => hR.aside [] nofun w w.shelf (w.draws.drop 1)
  | store key value =>
    intro w
    rw [exec_store]
    exact hR.aside _ (fun r hr => Shelf.isAside_setLogged hr) w _ w.draws
  | ask r => exact hR.ask r
  | settle r => exact hR.settle r
  | abandon r => exact hR.abandon r

/-! ## What runs respect -/

/-- A usual record is made, or time passes. -/
def Occurrence.IsInward : Occurrence → Prop
  | .logged r => r.IsUsual
  | .slept _ => True
  | .notified _ _ _ _ | .asked _ | .called _ | .printed _ => False

/-- A relation between a world and a later one that is kept up by whatever runs do to the surface
and on their own. -/
class Upkeep (R : World σ → World σ → Prop) : Prop extends Act.Frame R where
  /-- The surface is changed. -/
  change (c : SurfaceChange) : Act.Respects R c.act
  /-- Usual records are made and time passes, while the surface and the observers are as they
  were. -/
  aside {w w' : World σ} (os : List Occurrence) : w'.surface = w.surface →
    w'.listeners = w.listeners → w'.past = os.reverse ++ w.past → (∀ o ∈ os, o.IsInward) →
    R w w'

/-- A host that keeps up a relation between a world and a later one. -/
class Host.KeepsUp (h : Host σ) (R : World σ → World σ → Prop) : Prop where
  /-- It is asked. -/
  ask (r : Request) : Act.Respects R (Act.ask h r)
  /-- It settles a request. -/
  settle (r : Request) : Act.Respects R (Act.settle h r)
  /-- A request is given up. -/
  abandon (r : Request) : Act.Respects R (Act.abandon h r)

section Upkeep

variable {R : World σ → World σ → Prop} [Upkeep R]

/-- What concerns neither the surface nor the observers keeps it up, if nothing happens. -/
theorem Upkeep.unseen {w w' : World σ} (hsurface : w'.surface = w.surface)
    (hlisteners : w'.listeners = w.listeners) (hpast : w'.past = w.past) : R w w' :=
  Upkeep.aside [] hsurface hlisteners hpast (List.forall_mem_nil _)

/-- A record of a run keeps it up. -/
theorem Upkeep.log (level : Level) (message : Text) {context : Context}
    (hcontext : context.IsUsed) :
    Act.Respects R (Act.log level Run.logger message context : Act σ Unit) := by
  have husual : Record.IsUsual ⟨level, Run.logger, message, context, none⟩ :=
    ⟨hcontext, (by decide : Run.logger.IsPlain), rfl⟩
  exact fun _ => Upkeep.aside [_] rfl rfl rfl (by simpa [Occurrence.IsInward] using husual)

/-- Waiting keeps it up. -/
theorem Upkeep.sleep (ms : Nat) : Act.Respects R (Act.sleep ms : Act σ Unit) := by
  unfold Act.sleep
  split
  · exact fun w => Upkeep.aside [.slept ms] rfl rfl rfl (by simp [Occurrence.IsInward])
  · exact Act.Respects.pure _

/-- Ordinary steps keep it up. -/
theorem Host.KeepsUp.allows (h : Host σ) [h.KeepsUp R] : Act.Allows h R where
  change := Upkeep.change
  aside rs hrs w s ns := by
    refine Upkeep.aside (rs.map .logged) rfl rfl rfl fun o ho => ?_
    obtain ⟨r, hr, rfl⟩ := List.mem_map.mp ho
    exact (hrs r hr).toIsUsual
  ask := Host.KeepsUp.ask
  settle := Host.KeepsUp.settle
  abandon := Host.KeepsUp.abandon

namespace Run

variable (r : Run)

/-- The end of a run keeps it up. -/
theorem upkeep_released (w : World σ) : R w w.released := Upkeep.unseen rfl rfl rfl

/-- A run that begins keeps it up. -/
theorem upkeep_begin : Act.Respects R (r.begin : Act σ Run) := by
  have hnumbered (w : World σ) : R w { w with
      runIds := w.runIds + 1
      sequencer := { w.sequencer with
        started := w.sequencer.started + 1, active := w.sequencer.active + 1 } } :=
    Upkeep.unseen rfl rfl rfl
  refine (Act.Respects.modify hnumbered).bind fun _ => Act.Respects.get.bind fun w => ?_
  refine (Upkeep.log _ _ (.run _)).bind fun _ => ?_
  exact (Upkeep.change .clear).bind fun _ => Act.Respects.pure _

/-- Making the surface anew because of an action keeps it up. -/
theorem upkeep_remount (a : Action) : Act.Respects R (r.remount a : Act σ Unit) :=
  (Upkeep.log _ _ (.step _ _ _)).bind fun _ => Upkeep.change .remake

/-- A run that has applied all its actions keeps it up. -/
theorem upkeep_finish : Act.Respects R (r.finish : Act σ (Run × Progress)) :=
  Act.Respects.get.bind fun _ => (Upkeep.log _ _ (.run _)).bind fun _ => Act.Respects.pure _

/-- A part of an active run keeps it up, also when the run ends in it. -/
theorem upkeep_within {act : Act σ (Run × Progress)} (hact : Act.Respects R act) (w : World σ) :
    R w ((within r act).run w).2 := by
  have hw := hact w
  rw [run_within]
  generalize act.exec w = out at hw ⊢
  obtain ⟨res, w'⟩ := out
  cases res with
  | error f => exact Act.Frame.trans hw (upkeep_released w')
  | ok x =>
    unfold outcome
    dsimp only
    split
    · exact Act.Frame.trans hw (upkeep_released w')
    · exact hw

variable (h : Host σ) [h.KeepsUp R]

/-- An attempt at an action keeps it up. -/
theorem upkeep_attempt (mayWait : Bool) (a : Action) :
    Act.Respects R (r.attempt h mayWait a) := by
  have hannounce : Act.Respects R (r.announce a : Act σ Unit) :=
    Act.Respects.bind (fun w => Upkeep.unseen rfl rfl rfl) fun _ =>
      Upkeep.log _ _ (.step _ _ _)
  unfold attempt
  split
  · refine ((a.ordinary_settle h _ _).respects (Host.KeepsUp.allows h)).bind fun _ => ?_
    exact Act.Respects.pure _
  · exact hannounce.bind fun _ => (a.ordinary_start h mayWait).respects (Host.KeepsUp.allows h)

end Run

section Moves

variable {h : Host σ} [h.KeepsUp R]

/-- **A move of a run keeps it up.** -/
theorem Move.upkeep {x y : World σ × Run} {ds : List Deed} (hmove : Move h x ds y) : R x.1 y.1 := by
  have hreleased (w : World σ) : R w w.released := Run.upkeep_released w
  cases hmove with
  | idles => exact Upkeep.log _ _ .outside _
  | drops => exact Act.Frame.refl _
  | begins _ _ hbegin | beginFails _ _ hbegin =>
    exact (Run.upkeep_begin _).of_exec hbegin
  | waits _ _ hsleep => exact (Upkeep.sleep _).of_exec hsleep
  | asks _ _ hattempt | proceeds _ _ hattempt => exact (Run.upkeep_attempt _ h _ _).of_exec hattempt
  | reloads _ _ hattempt hremount =>
    exact Act.Frame.trans ((Run.upkeep_attempt _ h _ _).of_exec hattempt)
      ((Run.upkeep_remount _ _).of_exec hremount)
  | reloadFails _ _ hattempt hremount =>
    refine Act.Frame.trans ?_ (hreleased _)
    exact Act.Frame.trans ((Run.upkeep_attempt _ h _ _).of_exec hattempt)
      ((Run.upkeep_remount _ _).of_exec hremount)
  | fails _ _ hattempt =>
    exact Act.Frame.trans ((Run.upkeep_attempt _ h _ _).of_exec hattempt) (hreleased _)
  | finishes _ _ hfinish =>
    exact Act.Frame.trans ((Run.upkeep_finish _).of_exec hfinish) (hreleased _)
  | ends | cancelsPacing | closes => exact hreleased _
  | cancelsAsking =>
    refine Act.Frame.trans ?_ (hreleased _)
    exact Act.Ordinary.respects (Host.KeepsUp.allows h) (.timed _ _ (.abandon _)) _

/-- A row of moves keeps it up. -/
theorem Moves.upkeep {x y : World σ × Run} {ds : List Deed} (hmoves : Moves h x ds y) :
    R x.1 y.1 := by
  induction hmoves with
  | none x => exact Act.Frame.refl _
  | cons hmove _ ih => exact Act.Frame.trans hmove.upkeep ih

end Moves

namespace Run

variable (h : Host σ) [h.KeepsUp R] (r : Run)

/-- A run that goes on keeps it up. -/
theorem upkeep_advance (p : Pauses) (w : World σ) : R w ((r.advance h p).run w).2 := by
  obtain ⟨ds, hmoves, -⟩ := exists_moves_advance h p r w
  exact hmoves.upkeep

/-- A complete run keeps it up. -/
theorem upkeep_complete (workflow : Option Workflow) :
    Act.Respects R (complete h workflow) := by
  intro w
  have hadvance : R w ((advance h {} (ofWorkflow workflow)).run w).2 :=
    (ofWorkflow workflow).upkeep_advance h {} w
  rw [exec_complete]
  generalize (advance h {} (ofWorkflow workflow)).run w = out at hadvance ⊢
  obtain ⟨⟨r, progress⟩, w'⟩ := out
  cases progress with
  | failed f => exact hadvance
  | sleeping | asking | stepped | done => exact hadvance

/-- A run that is cancelled keeps it up. -/
theorem upkeep_cancel (w : World σ) : R w ((r.cancel h).run w).2 := by
  unfold cancel
  dsimp only
  split
  · exact upkeep_within r (Act.Respects.throw _) w
  · refine upkeep_within r (Act.Ordinary.respects (Host.KeepsUp.allows h) (.timed _ _ ?_)) w
    exact .bind (.abandon _) fun _ => .throw _
  · exact Act.Frame.refl w

end Run

namespace Traffic

/-- What a run does keeps up what it keeps up in every world. -/
theorem upkeep_drive {f : StartedRun → StateM (World σ) Run}
    (hf : ∀ s w, R w ((f s).run w).2) (t : Traffic σ) (k : Nat) :
    R t.world (t.drive k f).world := by
  unfold drive
  cases t.runs[k]? with
  | none => exact Act.Frame.refl _
  | some s => exact hf s t.world

/-- **Whatever runs do that overlap keeps it up.** -/
theorem upkeep_take {h : Host σ} [h.KeepsUp R] (t : Traffic σ) (turn : Turn) :
    R t.world (t.take h turn).world := by
  have hgiveUp (s : StartedRun) (w : World σ) : R w ((giveUp h s).run w).2 := by
    unfold giveUp
    split
    · next hbetween =>
      obtain ⟨ds, hmoves⟩ := Run.exists_moves_close (h := h) hbetween w
      exact hmoves.upkeep
    · exact s.run.upkeep_cancel h w
  cases turn with
  | start workflow stepwise => exact Act.Frame.refl _
  | resume k => exact upkeep_drive (fun s w => s.run.upkeep_advance h s.pauses w) t k
  | cancel k | close k => exact upkeep_drive hgiveUp t k

end Traffic

end Upkeep

end PushButton
