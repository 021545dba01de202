import PushButton.Proofs.Run.Telling

/-!
# The chronicle of a run

The chronicle of a run consists of the records that it makes: the one about its beginning, one about
each action that it takes up, in order, and one about its end if it has reloaded the surface or
applied all of its actions. Every move of a run adds those records that the chronicle asks for, and
all of them carry the id of the run.
-/

namespace PushButton

variable {σ : Type}

namespace Run

/-! ## The chronicle of a run -/

/-- The records about the first so many actions of a workflow. -/
def stepRecords (id : Text) (x : Workflow) (n : Nat) : List Record :=
  (x.actions.take n).zipIdx.map fun (a, i) => stepRecord id x.actions.length i a

/-- The records with which a run ends that has taken up so many actions, given its deeds. -/
inductive EndRecords (x : Workflow) (id : Text) (n : Nat) (own : List Deed) : List Record → Prop
  /-- It has reloaded the surface with the action that it has taken up last. -/
  | remade {i : Nat} {a : Action} : .remade ∈ own → .left .finished ∉ own → n = i + 1 →
      x.actions[i]? = some a → EndRecords x id n own [reloadRecord id i a]
  /-- It has applied all its actions. -/
  | finished (elapsed lines : Nat) : .remade ∉ own → .left .finished ∈ own →
      n = x.actions.length → EndRecords x id n own [finishRecord id elapsed lines]
  /-- It has not ended, or it was left, or something has failed. -/
  | nothing : .remade ∉ own → .left .finished ∉ own → EndRecords x id n own []

/-- The chronicle of a run of a workflow, given its deeds: it begins, and takes up the first so many
actions in order and each of them once, and then it may end by itself. -/
def Chronicle (ms : Nat) (x : Workflow) (id : Text) (own : List Deed) (rs : List Record) : Prop :=
  ∃ n ending, own.filterMap Deed.reached? = List.range n ∧ n ≤ x.actions.length ∧
    EndRecords x id n own ending ∧
    rs = beginRecord id x.label x.actions.length ms :: (stepRecords id x n ++ ending)

section Chronicle

variable {ms n : Nat} {x : Workflow} {id : Text} {own ds : List Deed} {rs : List Record}

/-- One action more is taken up. -/
theorem stepRecords_succ {a : Action} (ha : x.actions[n]? = some a) :
    stepRecords id x (n + 1) = stepRecords id x n ++ [stepRecord id x.actions.length n a] := by
  obtain ⟨hn, -⟩ := List.getElem?_eq_some_iff.mp ha
  have hlength : (x.actions.take n).length = n := List.length_take_of_le (Nat.le_of_lt hn)
  unfold stepRecords
  rw [List.take_add_one, ha, List.zipIdx_append, List.map_append, hlength, Nat.zero_add]
  rfl

/-- Deeds that are of no importance for the chronicle of a run. -/
structure Minor (ds : List Deed) : Prop where
  /-- No action is taken up. -/
  reached : ds.filterMap Deed.reached? = []
  /-- The surface is not made anew. -/
  remade : .remade ∉ ds
  /-- The run does not finish. -/
  finished : .left .finished ∉ ds

/-- Minor deeds do not change how a run has ended. -/
theorem EndRecords.append (h : EndRecords x id n own rs) (hds : Minor ds) :
    EndRecords x id n (own ++ ds) rs := by
  have hremade : .remade ∈ own ++ ds ↔ .remade ∈ own := by simp [hds.remade]
  have hfinished : .left .finished ∈ own ++ ds ↔ .left .finished ∈ own := by simp [hds.finished]
  cases h with
  | remade hmade hnot hn ha =>
    exact .remade (hremade.mpr hmade) (fun h => hnot (hfinished.mp h)) hn ha
  | finished elapsed lines hnot hall hn =>
    exact .finished elapsed lines (fun h => hnot (hremade.mp h)) (hfinished.mpr hall) hn
  | nothing hmade hnot =>
    exact .nothing (fun h => hmade (hremade.mp h)) fun h => hnot (hfinished.mp h)

/-- Minor deeds do not change the chronicle of a run. -/
theorem Chronicle.append (h : Chronicle ms x id own rs) (hds : Minor ds) :
    Chronicle ms x id (own ++ ds) rs := by
  obtain ⟨n, ending, hreached, hn, hending, hrs⟩ := h
  refine ⟨n, ending, ?_, hn, hending.append hds, hrs⟩
  rw [List.filterMap_append, hds.reached, List.append_nil, hreached]

end Chronicle

/-! ## Runs and their chronicles -/

/-- The number of actions that a run has taken up. -/
def taken (r : Run) : Nat :=
  match r.phase with
  | .asking _ _ => r.index + 1
  | _ => r.index

/-- A run that is under way has told that it has begun and which actions it has taken up. -/
structure IsUnderWay (ms : Nat) (x : Workflow) (id : Text) (own : List Deed) (rs : List Record)
    (r : Run) (n : Nat) : Prop where
  /-- The run has the label of the workflow. -/
  label : r.label = x.label
  /-- It knows how many actions there are. -/
  total : r.total = x.actions.length
  /-- It has the id. -/
  runId : r.id = id
  /-- It has the other actions before it. -/
  remaining : r.remaining = x.actions.drop r.index
  /-- It has begun. -/
  began : .began ∈ own
  /-- It has taken up so many actions. -/
  reached : own.filterMap Deed.reached? = List.range n
  /-- It has taken up no more actions than there are. -/
  bound : n ≤ x.actions.length
  /-- It has not reloaded the surface. -/
  remade : .remade ∉ own
  /-- It has not finished. -/
  finished : .left .finished ∉ own
  /-- That is what it has told. -/
  records : rs = beginRecord id x.label x.actions.length ms :: stepRecords id x n

/-- What a run of a workflow has told. -/
inductive Keeps (ms : Nat) (workflow : Option Workflow) (id : Text) (r : Run) (own : List Deed)
    (rs : List Record) : Prop
  /-- It has not begun. -/
  | fresh : r = ofWorkflow workflow → own = [] → rs = [] → Keeps ms workflow id r own rs
  /-- It was given up before it has begun, or there was nothing to do. -/
  | dropped : r.phase = .ended → .began ∉ own → rs = [] → Keeps ms workflow id r own rs
  /-- It is under way. -/
  | underWay {x : Workflow} : workflow = some x → r.phase = .between ∨ r.phase.isInside = true →
      IsUnderWay ms x id own rs r r.taken → Keeps ms workflow id r own rs
  /-- It is over. -/
  | isOver {x : Workflow} : workflow = some x → r.phase = .reloaded ∨ r.phase = .ended →
      .began ∈ own → Chronicle ms x id own rs → Keeps ms workflow id r own rs

namespace IsUnderWay

variable {ms n : Nat} {x : Workflow} {id : Text} {own ds : List Deed} {rs : List Record} {r : Run}

/-- What a run under way has told is its chronicle. -/
theorem chronicle (h : IsUnderWay ms x id own rs r n) : Chronicle ms x id own rs :=
  ⟨n, [], h.reached, h.bound, .nothing h.remade h.finished, by rw [List.append_nil, h.records]⟩

/-- A run that has an action before it is at the position of this action. -/
theorem getElem?_index (h : IsUnderWay ms x id own rs r n) {a : Action} {rest : List Action}
    (hrem : r.remaining = a :: rest) : x.actions[r.index]? = some a := by
  have hdrop : x.actions.drop r.index = a :: rest := h.remaining.symm.trans hrem
  rw [← Nat.add_zero r.index, ← List.getElem?_drop, hdrop]
  rfl

/-- A run that attempts an action has taken it up behind the attempt, whether or not it fails. -/
theorem attempt (hr : IsUnderWay ms x id own rs r r.taken) (h : Host σ) {a : Action}
    {rest : List Action} (hrem : r.remaining = a :: rest) (mayWait : Bool) (w : World σ) :
    IsUnderWay ms x id (own ++ r.attemptDeeds h mayWait a w) (rs ++ r.attemptRecords a) r
      (r.index + 1) := by
  have ha := hr.getElem?_index hrem
  obtain ⟨hbound, -⟩ := List.getElem?_eq_some_iff.mp ha
  have hplain : .remade ∉ r.attemptDeeds h mayWait a w ∧
      .left .finished ∉ r.attemptDeeds h mayWait a w := by
    unfold attemptDeeds
    split
    · simp
    · simp
  have hremade : .remade ∉ own ++ r.attemptDeeds h mayWait a w := by
    simp [hr.remade, hplain.1]
  have hfinished : .left .finished ∉ own ++ r.attemptDeeds h mayWait a w := by
    simp [hr.finished, hplain.2]
  have htold : (own ++ r.attemptDeeds h mayWait a w).filterMap Deed.reached? =
        List.range (r.index + 1) ∧
      rs ++ r.attemptRecords a = beginRecord id x.label x.actions.length ms ::
        stepRecords id x (r.index + 1) := by
    have hreached := hr.reached
    have hrecords := hr.records
    unfold taken at hreached hrecords
    unfold attemptDeeds attemptRecords
    cases hph : r.phase with
    | asking q since =>
      rw [hph] at hreached hrecords
      rw [List.filterMap_append, hreached, hrecords, List.append_nil]
      exact ⟨List.append_nil _, rfl⟩
    | _ =>
      rw [hph] at hreached hrecords
      dsimp only at hreached hrecords ⊢
      rw [List.filterMap_append, hreached, hrecords, List.range_succ, stepRecords_succ ha, hr.total,
        hr.runId]
      exact ⟨rfl, rfl⟩
  exact ⟨hr.label, hr.total, hr.runId, hr.remaining, List.mem_append_left _ hr.began, htold.1,
    hbound, hremade, hfinished, htold.2⟩

/-- A run that is under way stays so when it goes into another phase, as long as it has taken up as
many actions. -/
theorem with_phase (hr : IsUnderWay ms x id own rs r n) (ph : Phase) :
    IsUnderWay ms x id own rs { r with phase := ph } n :=
  { hr with }

/-- A run that has applied the action at its position goes on with the next one. -/
theorem next (hr : IsUnderWay ms x id own rs r n) (hds : Minor ds) :
    IsUnderWay ms x id (own ++ ds) rs r.next n where
  label := hr.label
  total := hr.total
  runId := hr.runId
  remaining := by
    unfold Run.next
    rw [hr.remaining, List.drop_drop]
  began := List.mem_append_left _ hr.began
  reached := by rw [List.filterMap_append, hds.reached, List.append_nil, hr.reached]
  bound := hr.bound
  remade := by simp [hr.remade, hds.remade]
  finished := by simp [hr.finished, hds.finished]
  records := hr.records

/-- A run that has reloaded the surface ends its chronicle with that. -/
theorem reload (hr : IsUnderWay ms x id own rs r (r.index + 1)) {a : Action} {rest : List Action}
    (hrem : r.remaining = a :: rest) (hremade : .remade ∈ ds) (hfinished : .left .finished ∉ ds)
    (hreached : ds.filterMap Deed.reached? = []) :
    Chronicle ms x id (own ++ ds) (rs ++ [reloadRecord r.id r.index a]) := by
  refine ⟨r.index + 1, [reloadRecord r.id r.index a], ?_, hr.bound, ?_, ?_⟩
  · rw [List.filterMap_append, hreached, List.append_nil, hr.reached]
  · rw [hr.runId]
    exact .remade (List.mem_append_right _ hremade) (by simp [hr.finished, hfinished]) rfl
      (hr.getElem?_index hrem)
  · rw [hr.records, List.cons_append]

/-- A run that has no action before it ends its chronicle with the record about its end. -/
theorem finish (hr : IsUnderWay ms x id own rs r r.index) (hrem : r.remaining = [])
    (elapsed lines : Nat) :
    Chronicle ms x id (own ++ [.left .finished]) (rs ++ [finishRecord r.id elapsed lines]) := by
  have hall : x.actions.length ≤ r.index := List.drop_eq_nil_iff.mp (hr.remaining.symm.trans hrem)
  refine ⟨r.index, [finishRecord r.id elapsed lines], ?_, hr.bound, ?_, ?_⟩
  · rw [List.filterMap_append, hr.reached]
    exact List.append_nil _
  · rw [hr.runId]
    exact .finished elapsed lines (by simp [hr.remade]) (by simp)
      (Nat.le_antisymm hr.bound hall)
  · rw [hr.records, List.cons_append]

end IsUnderWay

namespace Keeps

variable {ms : Nat} {workflow : Option Workflow} {id : Text} {own ds : List Deed}
  {rs : List Record} {r r' : Run}

/-- A run that is fresh has not begun. -/
theorem of_fresh (h : Keeps ms workflow id r own rs) (hph : r.phase = .fresh) :
    r = ofWorkflow workflow ∧ own = [] ∧ rs = [] := by
  cases h with
  | fresh hr hown hrs => exact ⟨hr, hown, hrs⟩
  | dropped hended => cases hph.symm.trans hended
  | underWay _ hactive =>
    rw [hph] at hactive
    obtain hactive | hactive := hactive
    · cases hactive
    · cases hactive
  | isOver _ hover =>
    rw [hph] at hover
    obtain hover | hover := hover
    · cases hover
    · cases hover

/-- A run that is between two actions or inside one is under way. -/
theorem of_active (h : Keeps ms workflow id r own rs)
    (hph : r.phase = .between ∨ r.phase.isInside = true) :
    ∃ x, workflow = some x ∧ IsUnderWay ms x id own rs r r.taken := by
  have hother {ph : Phase} (hr : r.phase = ph) (hne : ph ≠ .between)
      (hout : ph.isInside = false) : False := by
    rw [hr, hout] at hph
    exact hph.elim hne Bool.false_ne_true
  cases h with
  | fresh hr =>
    exact (hother (hr ▸ phase_ofWorkflow workflow) (by decide) rfl).elim
  | dropped hended => exact (hother hended (by decide) rfl).elim
  | underWay hx _ hr => exact ⟨_, hx, hr⟩
  | isOver _ hover =>
    obtain hover | hover := hover
    · exact (hother hover (by decide) rfl).elim
    · exact (hother hover (by decide) rfl).elim

/-- A run that has reloaded the surface is over. -/
theorem of_reloaded (h : Keeps ms workflow id r own rs) (hph : r.phase = .reloaded) :
    ∃ x, workflow = some x ∧ .began ∈ own ∧ Chronicle ms x id own rs := by
  cases h with
  | fresh hr => cases hph.symm.trans (hr ▸ phase_ofWorkflow workflow)
  | dropped hended => cases hph.symm.trans hended
  | underWay _ hactive =>
    rw [hph] at hactive
    obtain hactive | hactive := hactive
    · cases hactive
    · cases hactive
  | isOver hx _ hbegan hr => exact ⟨_, hx, hbegan, hr⟩

/-- A run under way that ends by minor deeds is over. -/
theorem leave (h : Keeps ms workflow id r own rs)
    (hph : r.phase = .between ∨ r.phase.isInside = true ∨ r.phase = .reloaded)
    (hended : r'.phase = .ended) (hds : Minor ds) :
    Keeps ms workflow id r' (own ++ ds) rs := by
  have hover : ∃ x, workflow = some x ∧ .began ∈ own ∧ Chronicle ms x id own rs := by
    obtain hph | hph | hph := hph
    · obtain ⟨x, hx, hr⟩ := h.of_active (.inl hph)
      exact ⟨x, hx, hr.began, hr.chronicle⟩
    · obtain ⟨x, hx, hr⟩ := h.of_active (.inr hph)
      exact ⟨x, hx, hr.began, hr.chronicle⟩
    · exact h.of_reloaded hph
  obtain ⟨x, hx, hbegan, hr⟩ := hover
  exact .isOver hx (.inr hended) (List.mem_append_left _ hbegan) (hr.append hds)

/-- What a run that has begun has told is its chronicle. -/
theorem chronicle (h : Keeps ms workflow id r own rs) (hbegan : .began ∈ own) :
    ∃ x, workflow = some x ∧ Chronicle ms x id own rs := by
  cases h with
  | fresh _ hown => exact (List.not_mem_nil (hown ▸ hbegan)).elim
  | dropped _ hnever => exact (hnever hbegan).elim
  | underWay hx _ hr => exact ⟨_, hx, hr.chronicle⟩
  | isOver hx _ _ hr => exact ⟨_, hx, hr⟩

/-- A run that has not begun has told nothing under any id. -/
theorem of_not_began (h : Keeps ms workflow id r own rs) (hbegan : .began ∉ own) (id' : Text) :
    Keeps ms workflow id' r own rs ∧ rs = [] := by
  cases h with
  | fresh hr hown hrs => exact ⟨.fresh hr hown hrs, hrs⟩
  | dropped hended _ hrs => exact ⟨.dropped hended hbegan hrs, hrs⟩
  | underWay _ _ hr => exact (hbegan hr.began).elim
  | isOver _ _ hmem => exact (hbegan hmem).elim

end Keeps

/-- A run that begins has told that. -/
theorem isUnderWay_begin {ms : Nat} {x : Workflow} {id : Text} (since : Nat) :
    IsUnderWay ms x id [.began] [beginRecord id x.label x.actions.length ms]
      { ofWorkflow (some x) with id := id, since := since, phase := .between } 0 where
  label := rfl
  total := rfl
  runId := rfl
  remaining := rfl
  began := List.mem_singleton.mpr rfl
  reached := rfl
  bound := Nat.zero_le _
  remade := by simp
  finished := by simp
  records := rfl

end Run

/-! ## Moves -/

namespace Run

/-- No run begins in an attempt. -/
theorem countP_attemptDeeds (h : Host σ) (mayWait : Bool) (r : Run) (a : Action) (w : World σ) :
    (r.attemptDeeds h mayWait a w).countP Deed.isBegan = 0 := by
  unfold attemptDeeds
  split
  · rfl
  · rfl

/-- The records of an attempt carry the id of the run. -/
theorem runId?_attemptRecords {r : Run} {a : Action} {rec : Record}
    (hrec : rec ∈ r.attemptRecords a) : rec.runId? = some r.id := by
  unfold attemptRecords at hrec
  cases hph : r.phase with
  | asking q since =>
    rw [hph] at hrec
    cases hrec
  | _ =>
    rw [hph] at hrec
    rw [List.mem_singleton.mp hrec]
    exact runId?_record _ _ _

/-- A run that has something to do is one of a workflow. -/
theorem exists_workflow {workflow : Option Workflow} (hrem : (ofWorkflow workflow).remaining ≠ []) :
    ∃ x, workflow = some x := by
  cases workflow with
  | none => exact (hrem rfl).elim
  | some x => exact ⟨x, rfl⟩

/-- A run that begins gets an id. -/
theorem eq_of_begin {r r' : Run} {w w' : World σ} (hbegin : r.begin.exec w = (.ok r', w')) :
    r' = { r with id := idOf (w.runIds + 1), since := w.clock } := by
  rw [exec_begin] at hbegin
  generalize (Act.clear.exec (r.numbered w)) = out at hbegin
  obtain ⟨res, u⟩ := out
  cases res with
  | error f => cases hbegin
  | ok _ => exact (Except.ok.inj (Prod.mk.inj hbegin).1).symm

/-- A run makes records that carry its id, and it still keeps its chronicle. -/
def Adds (ms : Nat) (workflow : Option Workflow) (id : Text) (own : List Deed) (rs : List Record)
    (w : World σ) (ds : List Deed) (y : World σ × Run) : Prop :=
  ∃ rs', w.Records (ds.countP Deed.isBegan) rs' y.1 ∧
    Keeps ms workflow id y.2 (own ++ ds) (rs ++ rs') ∧ ∀ r ∈ rs', r.runId? = some id

section Adds

variable {ms : Nat} {workflow : Option Workflow} {id : Text} {own ds : List Deed}
  {rs : List Record} {w w' w'' : World σ} {r r' : Run}

/-- A run adds no records. -/
theorem adds_nothing (hrecords : w.Records 0 [] w') (hcount : ds.countP Deed.isBegan = 0)
    (hkeeps : Keeps ms workflow id r' (own ++ ds) rs) :
    Adds ms workflow id own rs w ds (w', r') := by
  refine ⟨[], ?_, ?_, nofun⟩
  · rwa [hcount]
  · rwa [List.append_nil]

/-- A run that is left adds no records. -/
theorem adds_left (hkeeps : Keeps ms workflow id r own rs) {e : Ending} (he : e ≠ .finished)
    (hph : r.phase = .between ∨ r.phase.isInside = true ∨ r.phase = .reloaded)
    (hended : r'.phase = .ended) (hrecords : w.Records 0 [] w') :
    Adds ms workflow id own rs w [.left e] (w', r') := by
  have hminor : Minor [.left e] := ⟨rfl, by simp, by simp [he.symm]⟩
  exact adds_nothing hrecords rfl (hkeeps.leave hph hended hminor)

/-- A run that begins adds the record about its beginning. -/
theorem adds_begin {x : Workflow} {res : Except Failure Run}
    (hbegin : (ofWorkflow (some x)).begin.exec w = (res, w'))
    (hkeeps : Keeps ms (some x) (idOf (w.runIds + 1)) r' [.began]
      [beginRecord (idOf (w.runIds + 1)) x.label x.actions.length w.sequencer.pacing]) :
    Adds ms (some x) (idOf (w.runIds + 1)) [] [] w [.began] (w', r') := by
  have hrecords := records_begin (ofWorkflow (some x)) w
  rw [hbegin] at hrecords
  refine ⟨_, hrecords, hkeeps, fun r hr => ?_⟩
  rw [List.mem_singleton.mp hr]
  exact runId?_record _ [] _

/-- A run that attempts an action adds the record about it, and what it adds behind that. -/
theorem adds_attempt {h : Host σ} [h.KeepsTo Occurrence.IsOutside] {a : Action} {mayWait : Bool}
    {res : Except Failure Begun} {rs' : List Record} (hid : r.id = id)
    (hattempt : (r.attempt h mayWait a).exec w = (res, w')) (hrecords : w'.Records 0 rs' w'')
    (hcount : ds.countP Deed.isBegan = 0)
    (hkeeps : Keeps ms workflow id r' ((own ++ r.attemptDeeds h mayWait a w) ++ ds)
      ((rs ++ r.attemptRecords a) ++ rs')) (hids : ∀ rec ∈ rs', rec.runId? = some id) :
    Adds ms workflow id own rs w (r.attemptDeeds h mayWait a w ++ ds) (w'', r') := by
  have hattempted := r.records_attempt h mayWait a w
  rw [hattempt] at hattempted
  refine ⟨r.attemptRecords a ++ rs', ?_, ?_, fun rec hrec => ?_⟩
  · rw [List.countP_append, countP_attemptDeeds, hcount]
    exact hattempted.append hrecords
  · rw [← List.append_assoc, ← List.append_assoc]
    exact hkeeps
  · obtain hrec | hrec := List.mem_append.mp hrec
    · rw [runId?_attemptRecords hrec, hid]
    · exact hids rec hrec

/-- A run that attempts an action and adds nothing behind that. -/
theorem adds_attempt_only {h : Host σ} [h.KeepsTo Occurrence.IsOutside] {a : Action}
    {mayWait : Bool} {res : Except Failure Begun} (hid : r.id = id)
    (hattempt : (r.attempt h mayWait a).exec w = (res, w')) (hrecords : w'.Records 0 [] w'')
    (hcount : ds.countP Deed.isBegan = 0)
    (hkeeps : Keeps ms workflow id r' ((own ++ r.attemptDeeds h mayWait a w) ++ ds)
      (rs ++ r.attemptRecords a)) :
    Adds ms workflow id own rs w (r.attemptDeeds h mayWait a w ++ ds) (w'', r') := by
  refine adds_attempt hid hattempt hrecords hcount ?_ nofun
  rwa [List.append_nil]

/-- A run that reloads the surface adds the record about that and is over. -/
theorem adds_reload {h : Host σ} [h.KeepsTo Occurrence.IsOutside] {x : Workflow} {a : Action}
    {rest : List Action} {mayWait : Bool} {res : Except Failure Begun} {res' : Except Failure Unit}
    {u : World σ} (hx : workflow = some x) (hr : IsUnderWay ms x id own rs r r.taken)
    (hrem : r.remaining = a :: rest) (hattempt : (r.attempt h mayWait a).exec w = (res, w'))
    (hremount : (r.remount a).exec w' = (res', w'')) (hrecords : w''.Records 0 [] u)
    (hcount : ds.countP Deed.isBegan = 0) (hremade : .remade ∈ ds)
    (hfinished : .left .finished ∉ ds) (hreached : ds.filterMap Deed.reached? = [])
    (hover : r'.phase = .reloaded ∨ r'.phase = .ended) :
    Adds ms workflow id own rs w (r.attemptDeeds h mayWait a w ++ ds) (u, r') := by
  have hattempted := hr.attempt h hrem mayWait w
  have hremounted := r.records_remount a w'
  rw [hremount] at hremounted
  have hchronicle := hattempted.reload hrem hremade hfinished hreached
  refine adds_attempt hr.runId hattempt (hremounted.then_nothing hrecords) hcount ?_ ?_
  · exact .isOver hx hover (List.mem_append_left _ hattempted.began) hchronicle
  · intro rec hrec
    rw [List.mem_singleton.mp hrec, ← hr.runId]
    exact runId?_record _ _ _

end Adds

/-- Waiting tells nothing about runs. -/
theorem records_sleep (ms : Nat) : Act.Respects (World.Records (σ := σ) 0 []) (Act.sleep ms) := by
  intro w
  unfold Act.sleep
  split
  · exact World.records_nothing [.slept ms] (by simp; rfl) rfl rfl rfl
  · exact World.records_unchanged rfl rfl rfl

end Run

open Run in
/-- **A move of a run adds records of its own**, and what the run has told stays its chronicle. -/
theorem Move.adds {h : Host σ} [h.KeepsTo Occurrence.IsOutside] {workflow : Option Workflow}
    {id : Text} {x y : World σ × Run} {own ds : List Deed} {rs : List Record}
    (hmove : Move h x ds y) (hkeeps : Keeps x.1.sequencer.pacing workflow id x.2 own rs)
    (hid : x.2.phase = .fresh → id = idOf (x.1.runIds + 1)) :
    Adds x.1.sequencer.pacing workflow id own rs x.1 ds y := by
  have hallows := Host.KeepsTo.allows_records h
  have hreleased (w : World σ) := World.records_released w
  cases hmove with
  | @idles w r hph hrem =>
    obtain ⟨-, rfl, rfl⟩ := hkeeps.of_fresh hph
    have hrecords : w.Records 0 [] ((Act.log .debug logger
        "Nothing to run (no configuration or no actions)").exec w).2 :=
      World.records_nothing [_] (by simp; rfl) rfl rfl rfl
    exact adds_nothing hrecords rfl (.dropped rfl nofun rfl)
  | @drops w r hph =>
    obtain ⟨-, rfl, rfl⟩ := hkeeps.of_fresh hph
    exact adds_nothing (Act.Frame.refl w) rfl (.dropped rfl nofun rfl)
  | @begins w w' r r' hph hrem hbegin =>
    obtain ⟨rfl, rfl, rfl⟩ := hkeeps.of_fresh hph
    obtain ⟨x, rfl⟩ := exists_workflow hrem
    obtain rfl := hid hph
    obtain rfl := eq_of_begin hbegin
    exact adds_begin hbegin (.underWay rfl (.inl rfl) (isUnderWay_begin w.clock))
  | @beginFails w w' r f hph hrem hbegin =>
    obtain ⟨rfl, rfl, rfl⟩ := hkeeps.of_fresh hph
    obtain ⟨x, rfl⟩ := exists_workflow hrem
    obtain rfl := hid hph
    exact adds_begin hbegin (.isOver rfl (.inr rfl) (List.mem_singleton.mpr rfl)
      (isUnderWay_begin w.clock).chronicle)
  | @waits w w' r hph hrem hsleep =>
    obtain ⟨x, hx, hr⟩ := hkeeps.of_active (.inl hph)
    have htaken : r.taken = r.index := by simp [taken, hph]
    rw [htaken] at hr
    refine adds_nothing ((records_sleep _).of_exec hsleep) rfl (.underWay hx (.inr rfl) ?_)
    rw [List.append_nil]
    exact hr.with_phase .pacing
  | @asks w w' r a rest mayWait q since hph hrem hattempt =>
    obtain ⟨x, hx, hr⟩ := hkeeps.of_active (.inr hph)
    have hasks := (hr.attempt h hrem mayWait w).with_phase (.asking q since)
    rw [← List.append_nil (own ++ _)] at hasks
    have hadds := adds_attempt_only hr.runId hattempt (Act.Frame.refl w') rfl
      (.underWay hx (.inr rfl) hasks)
    rwa [List.append_nil] at hadds
  | @proceeds w w' r a rest mayWait hph hrem hattempt =>
    obtain ⟨x, hx, hr⟩ := hkeeps.of_active (.inr hph)
    have hminor : Minor [.applied r.index a] := ⟨rfl, by simp, by simp⟩
    have hnext := ((hr.attempt h hrem mayWait w).next hminor).with_phase .between
    exact adds_attempt_only hr.runId hattempt (Act.Frame.refl w') rfl
      (.underWay hx (.inl rfl) hnext)
  | @reloads w w' w'' r a rest mayWait hph hrem hattempt hremount =>
    obtain ⟨x, hx, hr⟩ := hkeeps.of_active (.inr hph)
    exact adds_reload hx hr hrem hattempt hremount (Act.Frame.refl w'') rfl (by simp) (by simp) rfl
      (.inl rfl)
  | @reloadFails w w' w'' r r' a rest mayWait f hph hrem hattempt hremount hended =>
    obtain ⟨x, hx, hr⟩ := hkeeps.of_active (.inr hph)
    exact adds_reload hx hr hrem hattempt hremount (hreleased w'') rfl (by simp) (by simp) rfl
      (.inr hended)
  | @fails w w' r r' a rest mayWait f hph hrem hattempt hended =>
    obtain ⟨x, hx, hr⟩ := hkeeps.of_active (.inr hph)
    have hattempted := hr.attempt h hrem mayWait w
    have hminor : Minor [.left .failed] := ⟨rfl, by simp, by simp⟩
    exact adds_attempt_only hr.runId hattempt (hreleased w') rfl
      (.isOver hx (.inr hended) (List.mem_append_left _ hattempted.began)
        (hattempted.chronicle.append hminor))
  | @finishes w w' r r' out hph hrem hfinish hended =>
    obtain ⟨x, hx, hr⟩ := hkeeps.of_active (.inl hph)
    have htaken : r.taken = r.index := by simp [taken, hph]
    rw [htaken] at hr
    obtain ⟨elapsed, lines, hrecords⟩ := r.records_finish w
    rw [hfinish] at hrecords
    refine ⟨_, hrecords.then_nothing (hreleased w'), ?_, fun rec hrec => ?_⟩
    · exact .isOver hx (.inr hended) (List.mem_append_left _ hr.began)
        (hr.finish hrem elapsed lines)
    · rw [List.mem_singleton.mp hrec, ← hr.runId]
      exact runId?_record _ [] _
  | @ends w r r' hph hended =>
    exact adds_left hkeeps nofun (.inr (.inr hph)) hended (hreleased w)
  | @cancelsPacing w r r' hph hended =>
    exact adds_left hkeeps nofun (.inr (.inl (by rw [hph]; rfl))) hended (hreleased w)
  | @cancelsAsking w r r' a rest q since hph hrem hended =>
    have habandon := Act.Ordinary.respects hallows (.timed a since (.abandon q)) w
    exact adds_left hkeeps nofun (.inr (.inl (by rw [hph]; rfl))) hended
      (habandon.then_nothing (hreleased _))
  | @closes w r r' hph hended =>
    exact adds_left hkeeps nofun (hph.imp_right .inr) hended (hreleased w)

end PushButton
