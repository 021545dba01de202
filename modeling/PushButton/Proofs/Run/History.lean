import PushButton.Proofs.Run.Deeds

/-!
# Histories of overlapping runs

A history lists the deeds of all runs in the order in which they were done, each with the number of
its run. It grows when a run is started, which is no deed yet, and with every move of a run. All
that can be done with the runs has a history, and at every moment of a history the surface and what
is known about the runs are what its deeds have left.
-/

namespace PushButton

variable {σ : Type}

/-- A history of the runs on a surface: what there was before, the deeds, and what there is now. -/
inductive History (h : Host σ) (t₀ : Traffic σ) : List (Nat × Deed) → Traffic σ → Prop
  /-- Nothing was done. -/
  | nil : History h t₀ [] t₀
  /-- A run was started. -/
  | started {ds : List (Nat × Deed)} {t : Traffic σ} (workflow : Option Workflow)
      (stepwise : Bool) : History h t₀ ds t →
      History h t₀ ds { t with runs := t.runs ++ [.new workflow stepwise] }
  /-- A run has made a move. -/
  | moved {ds : List (Nat × Deed)} {ds' : List Deed} {t : Traffic σ} {k : Nat} {s : StartedRun}
      {w : World σ} {r : Run} : History h t₀ ds t → t.runs[k]? = some s →
      Move h (t.world, s.run) ds' (w, r) →
      History h t₀ (ds ++ ds'.map (k, ·)) ⟨w, t.runs.set k { s with run := r }⟩

/-! ## Looking up runs -/

/-- Where one item was appended, there are the earlier items and this one. -/
theorem getElem?_append_one {α : Type} {items : List α} {x y : α} {k : Nat} :
    (items ++ [y])[k]? = some x ↔ items[k]? = some x ∨ k = items.length ∧ x = y := by
  obtain hk | rfl | hk := Nat.lt_trichotomy k items.length
  · rw [List.getElem?_append_left hk]
    exact ⟨.inl, fun h => h.resolve_right fun ⟨hlength, _⟩ => by omega⟩
  · rw [List.getElem?_concat_length, List.getElem?_eq_none (Nat.le_refl _)]
    simp [eq_comm]
  · rw [List.getElem?_eq_none (by simp; omega), List.getElem?_eq_none (by omega)]
    simp
    omega

/-- Where one item was replaced, there are the other items and the new one. -/
theorem getElem?_set_one {α : Type} {items : List α} {x y : α} {j k : Nat} (hj : j < items.length) :
    (items.set j y)[k]? = some x ↔ k = j ∧ x = y ∨ k ≠ j ∧ items[k]? = some x := by
  by_cases hkj : k = j
  · subst hkj
    rw [List.getElem?_set_self hj]
    simp [eq_comm]
  · rw [List.getElem?_set_ne (Ne.symm hkj)]
    simp [hkj]

namespace StartedRun

/-- A run that has just been started is sound. -/
theorem isSound_new (workflow : Option Workflow) (stepwise : Bool) :
    (new workflow stepwise).run.IsSound := by
  refine Run.isSound_of_ne fun q since hph => ?_
  cases (Run.phase_ofWorkflow workflow).symm.trans hph

end StartedRun

/-! ## Runs that are over -/

namespace Traffic

/-- What is done with a run that is there. -/
theorem drive_of_getElem? {t : Traffic σ} {k : Nat} {s : StartedRun} (hs : t.runs[k]? = some s)
    (f : StartedRun → StateM (World σ) Run) : t.drive k f =
      ⟨((f s).run t.world).2, t.runs.set k { s with run := ((f s).run t.world).1 }⟩ := by
  unfold drive
  rw [hs]
  rfl

/-- The run with a number is over: it has ended, and no turn of it changes anything. -/
structure IsOver (h : Host σ) (t : Traffic σ) (k : Nat) : Prop where
  /-- It has ended. -/
  ended : ∃ s, t.runs[k]? = some s ∧ s.run.phase = .ended
  /-- When it goes on, nothing changes. -/
  resume : t.take h (.resume k) = t
  /-- When it is cancelled, nothing changes. -/
  cancel : t.take h (.cancel k) = t
  /-- When it is closed, nothing changes. -/
  close : t.take h (.close k) = t

variable {h : Host σ} {t : Traffic σ} {k : Nat} {s : StartedRun}

/-- A run that is given up has ended. -/
theorem phase_giveUp (h : Host σ) (s : StartedRun) (w : World σ) :
    ((giveUp h s).run w).1.phase = .ended := by
  unfold giveUp
  split
  · exact s.run.phase_close w
  · exact s.run.phase_cancel h w

/-- A run that has ended is over. -/
theorem isOver_of_ended (hs : t.runs[k]? = some s) (hended : s.run.phase = .ended) :
    t.IsOver h k := by
  obtain ⟨hk, hget⟩ := List.getElem?_eq_some_iff.mp hs
  have hsame : t.runs.set k s = t.runs := hget ▸ List.set_getElem_self hk
  have hgiveUp : t.drive k (giveUp h) = t := by
    have hstays : (giveUp h s).run t.world = (s.run, t.world) := by
      unfold giveUp Run.isBetween Run.close
      rw [hended]
      exact congrArg (·, t.world) (Run.with_phase hended)
    rw [drive_of_getElem? hs, hstays]
    exact congrArg (Traffic.mk t.world) hsame
  refine ⟨⟨s, hs, hended⟩, ?_, hgiveUp, hgiveUp⟩
  have hstays : (Prod.fst <$> s.run.advance h s.pauses).run t.world = (s.run, t.world) := by
    rw [StateT.run_map, Run.run_advance_ended hended]
    rfl
  change t.drive k (fun s => Prod.fst <$> s.run.advance h s.pauses) = t
  rw [drive_of_getElem? hs, hstays]
  exact congrArg (Traffic.mk t.world) hsame

/-- A run that is cancelled or closed is given up. -/
theorem take_eq_drive_giveUp {turn : Turn} (hturn : turn = .cancel k ∨ turn = .close k) :
    t.take h turn = t.drive k (giveUp h) := by
  obtain rfl | rfl := hturn
  · rfl
  · rfl

/-- A run that is cancelled or closed is over then. -/
theorem isOver_take (hs : t.runs[k]? = some s) {turn : Turn}
    (hturn : turn = .cancel k ∨ turn = .close k) : (t.take h turn).IsOver h k := by
  obtain ⟨hk, -⟩ := List.getElem?_eq_some_iff.mp hs
  rw [take_eq_drive_giveUp hturn, drive_of_getElem? hs]
  exact isOver_of_ended (List.getElem?_set_self hk) (phase_giveUp h s t.world)

end Traffic

namespace History

variable {h : Host σ} {t₀ t : Traffic σ} {ds : List (Nat × Deed)}

/-- A history that goes on is one history. The induction is on the later part. -/
theorem append {t' : Traffic σ} {ds' : List (Nat × Deed)} (hist : History h t₀ ds t)
    (hist' : History h t ds' t') : History h t₀ (ds ++ ds') t' := by
  induction hist' with
  | nil =>
    rw [List.append_nil]
    exact hist
  | started workflow stepwise _ ih => exact ih.started workflow stepwise
  | moved _ hs hmove ih =>
    rw [← List.append_assoc]
    exact ih.moved hs hmove

/-- A row of moves of a run makes the history longer. The induction is on the moves. -/
theorem movedAll {ds' : List Deed} {k : Nat} {s : StartedRun} {x y : World σ × Run}
    (hist : History h t₀ ds t) (hs : t.runs[k]? = some s) (hmoves : Moves h x ds' y)
    (hx : x = (t.world, s.run)) :
    History h t₀ (ds ++ ds'.map (k, ·)) ⟨y.1, t.runs.set k { s with run := y.2 }⟩ := by
  obtain ⟨hk, hget⟩ := List.getElem?_eq_some_iff.mp hs
  induction hmoves generalizing ds t s with
  | none x =>
    subst hx
    have hsame : t.runs.set k s = t.runs := by
      rw [← hget]
      exact List.set_getElem_self hk
    change History h t₀ (ds ++ []) ⟨t.world, t.runs.set k s⟩
    rw [hsame, List.append_nil]
    exact hist
  | @cons x y z ds₁ ds₂ hmove _ ih =>
    subst hx
    have hset : (t.runs.set k { s with run := y.2 })[k]? = some { s with run := y.2 } :=
      List.getElem?_set_self hk
    obtain ⟨hk', hget'⟩ := List.getElem?_eq_some_iff.mp hset
    have hmoved := ih (hist.moved hs hmove) hset rfl hk' hget'
    rw [List.set_set, List.append_assoc, ← List.map_append] at hmoved
    exact hmoved

/-- The runs of a history are sound. -/
theorem isSound (hist : History h t₀ ds t) (hsound : ∀ s ∈ t₀.runs, s.run.IsSound) :
    ∀ s ∈ t.runs, s.run.IsSound := by
  induction hist with
  | nil => exact hsound
  | started workflow stepwise _ ih =>
    intro s hs
    obtain hs | hs := List.mem_append.mp hs
    · exact ih s hs
    · rw [List.mem_singleton.mp hs]
      exact StartedRun.isSound_new workflow stepwise
  | moved _ _ hmove ih =>
    intro s hs
    obtain hs | rfl := List.mem_or_eq_of_mem_set hs
    · exact ih s hs
    · exact hmove.isSound

/-- The world of a history follows its deeds. -/
theorem follows (hist : History h t₀ ds t) (hsound : ∀ s ∈ t₀.runs, s.run.IsSound) :
    t₀.world.Follows (ds.map (·.2)) t.world := by
  induction hist with
  | nil => exact (Act.Frame.refl (R := World.Puts [] []) _).follows_nil
  | started _ _ _ ih => exact ih
  | @moved ds ds' t k s w r hist' hs hmove ih =>
    have hown : (ds'.map (k, ·)).map (·.2) = ds' := by
      rw [List.map_map]
      exact List.map_id ds'
    rw [List.map_append, hown]
    exact ih.append (hmove.follows (hist'.isSound hsound s (List.mem_of_getElem? hs)))

/-- What is done with a run that is there makes the history longer, if the run makes moves. -/
theorem drive {f : StartedRun → StateM (World σ) Run} {k : Nat} (hist : History h t₀ ds t)
    (hf : ∀ s ∈ t.runs, ∃ ds', Moves h (t.world, s.run) ds'
      (((f s).run t.world).2, ((f s).run t.world).1)) :
    ∃ ds', History h t₀ (ds ++ ds') (t.drive k f) := by
  unfold Traffic.drive
  cases hs : t.runs[k]? with
  | none =>
    refine ⟨[], ?_⟩
    rw [List.append_nil]
    exact hist
  | some s =>
    obtain ⟨ds', hmoves⟩ := hf s (List.mem_of_getElem? hs)
    exact ⟨ds'.map (k, ·), hist.movedAll hs hmoves rfl⟩

/-- A run that is given up makes moves. -/
theorem exists_moves_giveUp {s : StartedRun} (hsound : s.run.IsSound) (w : World σ) :
    ∃ ds, Moves h (w, s.run) ds
      (((Traffic.giveUp h s).run w).2, ((Traffic.giveUp h s).run w).1) := by
  unfold Traffic.giveUp
  by_cases hbetween : s.run.isBetween = true
  · rw [if_pos hbetween]
    exact Run.exists_moves_close hbetween w
  · rw [if_neg hbetween]
    obtain ⟨ds, hmoves, -⟩ := Run.isReached_cancel (h := h) hsound (by simpa using hbetween) w
    exact ⟨ds, hmoves⟩

/-- A turn makes the history longer. -/
theorem take (hist : History h t₀ ds t) (hsound : ∀ s ∈ t₀.runs, s.run.IsSound) (turn : Turn) :
    ∃ ds', History h t₀ (ds ++ ds') (t.take h turn) := by
  have hgivenUp (k : Nat) : ∃ ds', History h t₀ (ds ++ ds') (t.drive k (Traffic.giveUp h)) :=
    hist.drive fun s hs => exists_moves_giveUp (hist.isSound hsound s hs) t.world
  cases turn with
  | start workflow stepwise =>
    refine ⟨[], ?_⟩
    rw [List.append_nil]
    exact hist.started workflow stepwise
  | resume k =>
    refine hist.drive (f := fun s => Prod.fst <$> s.run.advance h s.pauses) fun s _ => ?_
    obtain ⟨ds', hmoves, -⟩ := Run.exists_moves_advance h s.pauses s.run t.world
    exact ⟨ds', hmoves⟩
  | cancel k => exact hgivenUp k
  | close k => exact hgivenUp k

/-- All that can be done with the runs has a history. The induction is on the turns. -/
theorem exists_takeAll (h : Host σ) {t₀ : Traffic σ} (hsound : ∀ s ∈ t₀.runs, s.run.IsSound)
    (turns : List Turn) : ∃ ds, History h t₀ ds (t₀.takeAll h turns) := by
  suffices hlonger : ∀ t ds, History h t₀ ds t → ∃ ds', History h t₀ ds' (t.takeAll h turns) from
    hlonger t₀ [] .nil
  induction turns with
  | nil => exact fun t ds hist => ⟨ds, hist⟩
  | cons turn rest ih =>
    intro t ds hist
    obtain ⟨ds', hist'⟩ := hist.take hsound turn
    exact ih (t.take h turn) (ds ++ ds') hist'

end History

end PushButton
