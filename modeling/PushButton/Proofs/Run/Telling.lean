import PushButton.Proofs.Host.Conduct
import PushButton.Proofs.Run.Times
import PushButton.Proofs.Run.Upkeep

/-!
# The records that runs make

A run makes records in the name of the part of the program that runs workflows: when it begins, when
it takes up an action, when the surface was reloaded, and when all actions are applied. Nothing else
that happens in a run makes such a record: neither the actions, nor the observers, nor the host.
-/

namespace PushButton

variable {σ α : Type}

/-! ## Records of runs -/

namespace Record

/-- The record is information in the name of the part of the program that runs workflows. -/
def isOfRuns (r : Record) : Bool := r.level = .info && r.logger = Run.logger

/-- The id of the run that the record carries, where it carries one. -/
def runId? (r : Record) : Option Text :=
  match Json.lookup "run_id" r.context with
  | some (.text id) => some id
  | _ => none

end Record

/-- The record of a run that is made, where one is made. -/
def Occurrence.ofRuns? (o : Occurrence) : Option Record := o.record?.filter Record.isOfRuns

namespace Run

/-- Information about the run with an id. -/
def record (id : Text) (context : Context) (message : Text) : Record :=
  { level := .info, logger := logger, message := message
    context := [(("run_id" : Text), .text id)] ++ context }

/-- The context of a record about an action at a position. -/
def actionContext (i : Nat) (a : Action) : Context :=
  [("step_index", .int (i + 1)), ("action", .text a.kind.name)]

/-- The record about the beginning of a run with a label and a number of actions. -/
def beginRecord (id label : Text) (total ms : Nat) : Record :=
  record id [] ("Starting workflow '" ++ label ++ "' (actions=" ++ Text.ofNat total ++
    ", pacing=" ++ Text.ofNat ms ++ " ms)")

/-- The record about an action at a position that is taken up. -/
def stepRecord (id : Text) (total i : Nat) (a : Action) : Record :=
  record id (actionContext i a)
    ("Step " ++ Text.ofNat (i + 1) ++ "/" ++ Text.ofNat total ++ ": " ++ a.describe)

/-- The record about an action at a position that has reloaded the surface. -/
def reloadRecord (id : Text) (i : Nat) (a : Action) : Record :=
  record id (actionContext i a) "Surface reloaded, run ends here"

/-- The record about a run that has applied all its actions. -/
def finishRecord (id : Text) (elapsed lines : Nat) : Record :=
  record id [] ("Workflow finished in " ++ Text.ofNat elapsed ++ " ms (output lines=" ++
    Text.ofNat lines ++ ")")

/-- A record about a run carries its id. -/
theorem runId?_record (id : Text) (context : Context) (message : Text) :
    (record id context message).runId? = some id := by
  have hlookup : Json.lookup "run_id" ([(("run_id" : Text), Json.text id)] ++ context) =
      some (.text id) := if_pos rfl
  unfold Record.runId? record
  rw [hlookup]

end Run

/-! ## What is told in a part of a run -/

/-- Between a world and a later one some runs were given ids and made records; the waiting time is
the same. -/
structure World.Records (begun : Nat) (rs : List Record) (w w' : World σ) : Prop where
  /-- The records are made. -/
  past : ∃ os : List Occurrence, w'.past = os.reverse ++ w.past ∧
    os.filterMap Occurrence.ofRuns? = rs
  /-- The ids are given. -/
  runIds : w'.runIds = w.runIds + begun
  /-- The waiting time is the same. -/
  pacing : w'.sequencer.pacing = w.sequencer.pacing

namespace World

variable {n n' : Nat} {rs rs' : List Record} {w w' w'' : World σ}

/-- Something is told, and then something more. -/
theorem Records.append (h : w.Records n rs w') (h' : w'.Records n' rs' w'') :
    w.Records (n + n') (rs ++ rs') w'' := by
  obtain ⟨os, hpast, hos⟩ := h.past
  obtain ⟨os', hpast', hos'⟩ := h'.past
  refine ⟨⟨os ++ os', ?_, ?_⟩, ?_, h'.pacing.trans h.pacing⟩
  · rw [hpast', hpast, List.reverse_append, List.append_assoc]
  · rw [List.filterMap_append, hos, hos']
  · rw [h'.runIds, h.runIds, Nat.add_assoc]

/-- Things happen that are no records of runs. -/
theorem records_nothing (os : List Occurrence) (hos : ∀ o ∈ os, o.ofRuns? = none)
    (hpast : w'.past = os.reverse ++ w.past) (hrunIds : w'.runIds = w.runIds)
    (hpacing : w'.sequencer.pacing = w.sequencer.pacing) : w.Records 0 [] w' :=
  ⟨⟨os, hpast, List.filterMap_eq_nil_iff.mpr hos⟩, hrunIds, hpacing⟩

/-- Nothing happens, and no id is given. -/
theorem records_unchanged (hpast : w'.past = w.past) (hrunIds : w'.runIds = w.runIds)
    (hpacing : w'.sequencer.pacing = w.sequencer.pacing) : w.Records 0 [] w' :=
  records_nothing [] (List.forall_mem_nil _) hpast hrunIds hpacing

instance : Act.Frame (Records (σ := σ) 0 []) where
  refl _ := records_unchanged rfl rfl rfl
  trans h h' := h.append h'

/-- A record about a run is made. -/
theorem records_record (id : Text) (context : Context) (message : Text) (w : World σ) :
    w.Records 0 [Run.record id context message]
      (w.after [.logged (Run.record id context message)]) :=
  ⟨⟨_, rfl, rfl⟩, rfl, rfl⟩

/-- A run that ends tells nothing about it. -/
theorem records_released (w : World σ) : w.Records 0 [] w.released := records_unchanged rfl rfl rfl

/-- What is told, and then nothing. -/
theorem Records.then_nothing (h : w.Records n rs w') (h' : w'.Records 0 [] w'') :
    w.Records n rs w'' := by
  have htold := h.append h'
  rwa [List.append_nil] at htold

end World

namespace Act

open World (Records)

/-- Announcing a part of the surface tells nothing about runs. -/
theorem records_notify (field : Field) : Respects (Records 0 []) (notify field : Act σ Unit) := by
  have hoccur {o : Occurrence} (ho : o.ofRuns? = none) :
      Respects (Records 0 []) (occur o : Act σ Unit) :=
    fun _ => World.records_nothing [o] (by simpa using ho) rfl rfl rfl
  refine Respects.get.bind fun w => Respects.forM fun l _ => ?_
  refine Respects.get.bind fun w => (hoccur rfl).bind fun _ => ?_
  refine (Respects.forM fun t _ => hoccur rfl).bind fun _ => ?_
  have hleave (names : List Text) : Respects (Records 0 [])
      (modify fun w => { w with listeners := without names w.listeners } : Act σ PUnit) :=
    fun w => World.records_unchanged rfl rfl rfl
  refine (hleave _).bind fun _ => ?_
  split
  · exact Respects.throw _
  · exact Respects.pure _

/-- A change of the surface tells nothing about runs. -/
theorem records_change (c : SurfaceChange) : Respects (Records 0 []) (c.act : Act σ Unit) := by
  intro w
  have hupdated : w.Records 0 [] { w with surface := c.update w.surface } :=
    World.records_unchanged rfl rfl rfl
  exact hupdated.then_nothing (SurfaceChange.respects_act records_notify c w)

end Act

/-! ## Hosts and actions -/

/-- What happens is no record of runs. -/
def Occurrence.IsOutside (o : Occurrence) : Prop := o.ofRuns? = none

/-- A record in another name is no record of runs. -/
theorem Occurrence.isOutside_logged {r : Record} (hr : r.logger ≠ Run.logger) :
    IsOutside (.logged r) := by
  have hnot : r.isOfRuns = false := by simp [Record.isOfRuns, hr]
  change (some r).filter Record.isOfRuns = none
  rw [Option.filter_some, hnot]
  rfl

instance : HostScript.host.KeepsTo Occurrence.IsOutside where
  ask r s := by
    have hasked : ∀ o ∈ [Occurrence.asked r], o.IsOutside := by
      intro o ho
      rw [List.mem_singleton.mp ho]
      rfl
    unfold HostScript.host
    dsimp only
    split
    · exact hasked
    · exact hasked
  settle _ _ := nofun
  abandon _ _ := nofun

/-- The terminal prints, and makes records in its own name. -/
theorem Terminal.isOutside_reply (r : Request) (t : Terminal) :
    ∀ o ∈ (reply r t).2.2, o.IsOutside := by
  have hone {o : Occurrence} (ho : o.IsOutside) : ∀ o' ∈ [o], o'.IsOutside := by
    intro o' ho'
    rwa [List.mem_singleton.mp ho']
  unfold reply
  cases r with
  | alert message =>
    dsimp only
    split
    · exact hone rfl
    · exact hone rfl
  | prompt message =>
    dsimp only
    split
    · exact hone rfl
    · exact hone rfl
  | reload => exact hone (Occurrence.isOutside_logged (by decide))
  | close => nofun

instance : Terminal.host.KeepsTo Occurrence.IsOutside where
  ask := Terminal.isOutside_reply
  settle := Terminal.isOutside_reply
  abandon _ _ := nofun

instance {ρ : Type} {h : Host ρ} [h.KeepsTo Occurrence.IsOutside] :
    (Browser.host h).KeepsTo Occurrence.IsOutside := by
  have hlogger : Browser.logger ≠ Run.logger := by decide
  exact BrowserAct.keepsTo_host (fun _ => rfl) fun _ _ => Occurrence.isOutside_logged hlogger

/-- Ordinary steps make no record of runs, if the host makes none. -/
theorem Host.KeepsTo.allows_records (h : Host σ) [h.KeepsTo Occurrence.IsOutside] :
    Act.Allows h (World.Records 0 []) where
  change := Act.records_change
  aside rs hrs w s ns := by
    refine World.records_nothing (rs.map .logged) (fun o ho => ?_) rfl rfl rfl
    obtain ⟨r, hr, rfl⟩ := List.mem_map.mp ho
    exact Occurrence.isOutside_logged (hrs r hr).logger_ne
  ask r w :=
    World.records_nothing _ (Host.KeepsTo.ask (P := Occurrence.IsOutside) r w.host) rfl rfl rfl
  settle r w :=
    World.records_nothing _ (Host.KeepsTo.settle (P := Occurrence.IsOutside) r w.host) rfl rfl rfl
  abandon r w :=
    World.records_nothing _ (Host.KeepsTo.abandon (P := Occurrence.IsOutside) r w.host) rfl rfl rfl

/-! ## Parts of a run -/

namespace Run

/-- The records that an attempt makes: it takes up an action, unless its request is settled. -/
def attemptRecords (r : Run) (a : Action) : List Record :=
  match r.phase with
  | .asking _ _ => []
  | _ => [stepRecord r.id r.total r.index a]

/-- A run that begins makes a record with its id. -/
theorem records_begin (r : Run) (w : World σ) :
    w.Records 1 [beginRecord (idOf (w.runIds + 1)) r.label r.total w.sequencer.pacing]
      (r.begin.exec w).2 := by
  have hnumbered : w.Records 1
      [beginRecord (idOf (w.runIds + 1)) r.label r.total w.sequencer.pacing] (r.numbered w) :=
    ⟨⟨_, rfl, rfl⟩, rfl, rfl⟩
  rw [exec_begin]
  exact hnumbered.then_nothing (Act.records_change .clear _)

/-- A run that makes the surface anew because of an action makes a record. -/
theorem records_remount (r : Run) (a : Action) (w : World σ) :
    w.Records 0 [reloadRecord r.id r.index a] ((r.remount a).exec w).2 :=
  (World.records_record r.id (actionContext r.index a) "Surface reloaded, run ends here"
    w).then_nothing (Act.records_change .remake _)

/-- A run that has applied all its actions makes a record. -/
theorem records_finish (r : Run) (w : World σ) :
    ∃ elapsed lines, w.Records 0 [finishRecord r.id elapsed lines] (r.finish.exec w).2 :=
  ⟨Duration.between r.since w.clock, w.surface.output.length, World.records_record r.id [] _ w⟩

/-- A run that takes up an action makes a record. -/
theorem records_announce (r : Run) (a : Action) (w : World σ) :
    w.Records 0 [stepRecord r.id r.total r.index a] ((r.announce a).exec w).2 :=
  ⟨⟨[.logged (stepRecord r.id r.total r.index a)], rfl, rfl⟩, rfl, rfl⟩

/-- An attempt makes its records, whether or not it fails. -/
theorem records_attempt (h : Host σ) [h.KeepsTo Occurrence.IsOutside] (r : Run) (mayWait : Bool)
    (a : Action) (w : World σ) :
    w.Records 0 (r.attemptRecords a) ((r.attempt h mayWait a).exec w).2 := by
  have hallows := Host.KeepsTo.allows_records h
  cases hph : r.phase with
  | asking q since =>
    unfold attemptRecords
    rw [exec_attempt_asking hph, hph]
    exact (a.ordinary_settle h q since).respects hallows w
  | _ =>
    have hannounced := r.records_announce a w
    have hstart := (a.ordinary_start h mayWait).respects hallows
    unfold attempt attemptRecords
    rw [hph]
    dsimp only
    rw [Act.exec_bind]
    exact hannounced.then_nothing (hstart _)

end Run

end PushButton
