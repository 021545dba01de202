import PushButton.Cli.Shell
import PushButton.Proofs.Data.Calendar
import PushButton.Proofs.Run.Chronicle
import PushButton.Proofs.Run.Stages

/-!
# Records stay attributed to their run

However runs overlap, each record that is made about runs carries the id of the run that makes it,
and no two runs have the same id. So the records that carry the id of a run are the chronicle of
this run, whatever the other runs do in between, and a run that has ended adds nothing to it.
-/

namespace PushButton

variable {σ : Type}

/-! ## Ids -/

/-- No two runs have the same id. -/
theorem Run.idOf_injective : Function.Injective idOf := by
  intro m n h
  have hmoments := Moment.compact_ofMicros_injective h
  omega

/-- The id of the run with a number, where so many ids were given before. A run that has not begun
would get the next id. -/
def idIn (given : Nat) (ds : List (Nat × Deed)) (k : Nat) : Text :=
  Run.idOf (given + (begun ds).idxOf k + 1)

section Ids

variable {given : Nat} {ds ds' : List (Nat × Deed)} {j k : Nat}

/-- Runs that have begun do not share their ids with other runs. -/
theorem idIn_inj (hj : j ∈ begun ds) (hjk : idIn given ds j = idIn given ds k) : j = k := by
  have hidx := Run.idOf_injective hjk
  exact (List.idxOf_inj hj).mp (by omega)

/-- A run that begins gets the next id. -/
theorem idIn_of_notMem (hk : k ∉ begun ds) :
    idIn given ds k = Run.idOf (given + (begun ds).length + 1) := by
  unfold idIn
  rw [List.idxOf_of_notMem hk]

/-- A run that has begun keeps its id. -/
theorem idIn_append (hk : k ∈ begun ds) : idIn given (ds ++ ds') k = idIn given ds k := by
  unfold idIn
  rw [begun_append, List.idxOf_append_of_mem hk]

/-- A run that begins gets the id that it was to get. -/
theorem idIn_append_self (ds' : List Deed) :
    idIn given (ds ++ ds'.map (k, ·)) k = idIn given ds k := by
  by_cases hk : k ∈ begun ds
  · exact idIn_append hk
  · have hidx : (List.replicate (ds'.countP Deed.isBegan) k).idxOf k = 0 := by
      cases ds'.countP Deed.isBegan with
      | zero => rfl
      | succ n =>
        rw [List.replicate_succ]
        exact List.idxOf_cons_self
    unfold idIn
    rw [begun_append, begun_map, List.idxOf_append_of_notMem hk, hidx, List.idxOf_of_notMem hk]
    rfl

end Ids

/-! ## Records of overlapping runs -/

/-- The records that the run with a number has made, among all those with the numbers of runs. -/
def recordsOf (k : Nat) (told : List (Nat × Record)) : List Record :=
  (told.filter (·.1 = k)).map (·.2)

section Records

variable {told more : List (Nat × Record)} {rs : List Record} {j k : Nat}

/-- The records of a run are those in both parts of what was told. -/
theorem recordsOf_append :
    recordsOf k (told ++ more) = recordsOf k told ++ recordsOf k more := by
  unfold recordsOf
  rw [List.filter_append, List.map_append]

/-- The records of a run come to its earlier ones. -/
theorem recordsOf_append_same :
    recordsOf k (told ++ rs.map (k, ·)) = recordsOf k told ++ rs := by
  have hall : (rs.map fun r => (k, r)).filter (·.1 = k) = rs.map fun r => (k, r) :=
    List.filter_eq_self.mpr (by simp)
  have hrecords : recordsOf k (rs.map (k, ·)) = rs := by
    unfold recordsOf
    rw [hall, List.map_map]
    exact List.map_id rs
  rw [recordsOf_append, hrecords]

/-- The records of a run are no records of another one. -/
theorem recordsOf_append_other (hjk : j ≠ k) :
    recordsOf j (told ++ rs.map (k, ·)) = recordsOf j told := by
  have hnone : (rs.map fun r => (k, r)).filter (·.1 = j) = [] :=
    List.filter_eq_nil_iff.mpr (by simp [hjk.symm])
  have hrecords : recordsOf j (rs.map (k, ·)) = [] := by
    unfold recordsOf
    rw [hnone, List.map_nil]
  rw [recordsOf_append, hrecords, List.append_nil]

end Records

/-- A run begins once, and only if it is fresh. -/
theorem Move.countP_isBegan {h : Host σ} {x y : World σ × Run} {ds : List Deed}
    (hmove : Move h x ds y) :
    ds.countP Deed.isBegan = 0 ∨ x.2.phase = .fresh ∧ ds.countP Deed.isBegan = 1 := by
  have hattempt {mayWait : Bool} {r : Run} {a : Action} {w : World σ} {ds : List Deed}
      (hds : ds.countP Deed.isBegan = 0) :
      (r.attemptDeeds h mayWait a w ++ ds).countP Deed.isBegan = 0 := by
    rw [List.countP_append, Run.countP_attemptDeeds, hds]
  cases hmove with
  | begins hph | beginFails hph => exact .inr ⟨hph, rfl⟩
  | asks => exact .inl (Run.countP_attemptDeeds _ _ _ _ _)
  | proceeds | reloads | reloadFails | fails => exact .inl (hattempt rfl)
  | idles | drops | waits | finishes | ends | cancelsPacing | cancelsAsking | closes =>
    exact .inl rfl

/-- The records that are made about runs, each with the number of the run that has made it. -/
structure Attributed (w₀ : World σ) (ds : List (Nat × Deed)) (t : Traffic σ)
    (told : List (Nat × Record)) : Prop where
  /-- These are the records, and a run is given an id when it begins. -/
  records : w₀.Records (begun ds).length (told.map (·.2)) t.world
  /-- The records of each run are its chronicle. -/
  keeps : ∀ k s, t.runs[k]? = some s → Run.Keeps w₀.sequencer.pacing s.workflow
    (idIn w₀.runIds ds k) s.run (deedsOf k ds) (recordsOf k told)
  /-- Runs that were not started have done nothing. -/
  later : ∀ k, t.runs.length ≤ k → deedsOf k ds = []
  /-- No run begins twice. -/
  nodup : (begun ds).Nodup
  /-- A record carries the id of its run, which has begun. -/
  ids : ∀ x ∈ told, x.1 ∈ begun ds ∧ x.2.runId? = some (idIn w₀.runIds ds x.1)

namespace Attributed

variable {h : Host σ} {w₀ : World σ} {ds : List (Nat × Deed)} {t : Traffic σ}
  {told : List (Nat × Record)}

/-- At first there are no records. -/
theorem nil (w₀ : World σ) : Attributed w₀ [] ⟨w₀, []⟩ [] where
  records := World.records_unchanged rfl rfl rfl
  keeps := nofun
  later _ _ := rfl
  nodup := List.nodup_nil
  ids := nofun

/-- A run that was just started has made no records. -/
theorem started (hatt : Attributed w₀ ds t told) (workflow : Option Workflow) (stepwise : Bool) :
    Attributed w₀ ds { t with runs := t.runs ++ [.new workflow stepwise] } told where
  records := hatt.records
  keeps k s hs := by
    obtain hs | ⟨rfl, rfl⟩ := getElem?_append_one.mp hs
    · exact hatt.keeps k s hs
    · have hnone : deedsOf t.runs.length ds = [] := hatt.later _ (Nat.le_refl _)
      have hnever : t.runs.length ∉ begun ds := by simp [mem_begun_iff, hnone]
      refine .fresh rfl hnone (List.map_eq_nil_iff.mpr (List.filter_eq_nil_iff.mpr fun x hx => ?_))
      have hne : x.1 ≠ t.runs.length := fun heq => hnever (heq ▸ (hatt.ids x hx).1)
      simpa using hne
  later k hk := hatt.later k (by rw [List.length_append] at hk; omega)
  nodup := hatt.nodup
  ids := hatt.ids

/-- A run that makes a move makes records of its own. -/
theorem moved [h.KeepsTo Occurrence.IsOutside] {ds' : List Deed} {j : Nat} {s : StartedRun}
    {w : World σ} {r : Run} (hatt : Attributed w₀ ds t told) (hs : t.runs[j]? = some s)
    (hmove : Move h (t.world, s.run) ds' (w, r)) :
    ∃ rs : List Record, Attributed w₀ (ds ++ ds'.map (j, ·)) ⟨w, t.runs.set j { s with run := r }⟩
      (told ++ rs.map (j, ·)) := by
  obtain ⟨hj, -⟩ := List.getElem?_eq_some_iff.mp hs
  have hkeeps := hatt.keeps j s hs
  have hfresh (hph : s.run.phase = .fresh) : j ∉ begun ds := by
    rw [mem_begun_iff, (hkeeps.of_fresh hph).2.1]
    nofun
  have hid (hph : s.run.phase = .fresh) :
      idIn w₀.runIds ds j = Run.idOf (t.world.runIds + 1) := by
    rw [idIn_of_notMem (hfresh hph), hatt.records.runIds]
  rw [← hatt.records.pacing] at hkeeps
  obtain ⟨rs, hrecords, hkeeps', hids⟩ := hmove.adds hkeeps hid
  rw [hatt.records.pacing] at hkeeps'
  have hbegun : begun (ds ++ ds'.map (j, ·)) =
      begun ds ++ List.replicate (ds'.countP Deed.isBegan) j := by
    rw [begun_append, begun_map]
  refine ⟨rs, ?_, fun k s' hs' => ?_, fun k hk => ?_, ?_, fun x hx => ?_⟩
  · have hnumbers : (rs.map (j, ·)).map (·.2) = rs := by
      rw [List.map_map]
      exact List.map_id rs
    rw [hbegun, List.length_append, List.length_replicate, List.map_append, hnumbers]
    exact hatt.records.append hrecords
  · obtain ⟨rfl, rfl⟩ | ⟨hkj, hs'⟩ := (getElem?_set_one hj).mp hs'
    · rw [deedsOf_append_same, recordsOf_append_same, idIn_append_self]
      exact hkeeps'
    · rw [deedsOf_append_other hkj, recordsOf_append_other hkj]
      have hother := hatt.keeps k s' hs'
      by_cases hk : k ∈ begun ds
      · rw [idIn_append hk]
        exact hother
      · exact (hother.of_not_began (mem_begun_iff.not.mp hk) _).1
  · rw [List.length_set] at hk
    have hkj : k ≠ j := by omega
    rw [deedsOf_append_other hkj]
    exact hatt.later k hk
  · rw [hbegun]
    obtain hcount | ⟨hph, hcount⟩ := hmove.countP_isBegan
    · rw [hcount]
      simpa using hatt.nodup
    · rw [hcount]
      refine List.nodup_append.mpr ⟨hatt.nodup, by simp, fun k hk i hi => ?_⟩
      rw [List.eq_of_mem_replicate hi]
      exact fun hkj => hfresh hph (hkj ▸ hk)
  · obtain hx | hx := List.mem_append.mp hx
    · obtain ⟨hmem, hcarries⟩ := hatt.ids x hx
      rw [idIn_append hmem, begun_append]
      exact ⟨List.mem_append_left _ hmem, hcarries⟩
    · obtain ⟨rec, hrec, rfl⟩ := List.mem_map.mp hx
      rw [idIn_append_self, mem_begun_iff, deedsOf_append_same]
      refine ⟨?_, hids rec hrec⟩
      by_contra hnever
      have hnone := (hkeeps'.of_not_began hnever []).2
      rw [(List.append_eq_nil_iff.mp hnone).2] at hrec
      cases hrec

end Attributed

namespace History

variable {h : Host σ} [h.KeepsTo Occurrence.IsOutside] {w₀ : World σ} {t₀ t : Traffic σ}
  {ds₀ ds : List (Nat × Deed)} {told : List (Nat × Record)}

/-- Whatever happens next, the records stay attributed, and runs that have ended make none. The
induction is on the history. -/
theorem attributed (hist : History h t₀ ds t) (hatt : Attributed w₀ ds₀ t₀ told) :
    ∃ more, Attributed w₀ (ds₀ ++ ds) t (told ++ more) ∧
      ∀ k s, t₀.runs[k]? = some s → s.run.phase = .ended →
        t.runs[k]? = some s ∧ recordsOf k more = [] := by
  induction hist with
  | nil =>
    refine ⟨[], ?_, fun k s hs _ => ⟨hs, rfl⟩⟩
    rw [List.append_nil, List.append_nil]
    exact hatt
  | started workflow stepwise _ ih =>
    obtain ⟨more, hmore, hended⟩ := ih
    refine ⟨more, hmore.started workflow stepwise, fun k s hs hph => ?_⟩
    obtain ⟨hs', hnone⟩ := hended k s hs hph
    exact ⟨getElem?_append_one.mpr (.inl hs'), hnone⟩
  | @moved ds ds' t j s w r _ hs hmove ih =>
    obtain ⟨more, hmore, hended⟩ := ih
    obtain ⟨rs, hmoved⟩ := hmore.moved hs hmove
    obtain ⟨hj, -⟩ := List.getElem?_eq_some_iff.mp hs
    rw [List.append_assoc, List.append_assoc] at hmoved
    refine ⟨_, hmoved, fun k s' hs' hph => ?_⟩
    obtain ⟨hs'', hnone⟩ := hended k s' hs' hph
    have hkj : k ≠ j := by
      rintro rfl
      obtain rfl := Option.some.inj (hs''.symm.trans hs)
      exact hmove.phase_ne hph
    exact ⟨(getElem?_set_one hj).mpr (.inr ⟨hkj, hs''⟩), by rw [recordsOf_append_other hkj, hnone]⟩

end History

/-! ## What a log shows of overlapping runs -/

/-- The records about runs that a log shows of what has happened since a moment. -/
def World.runLog (th : Thresholds) (count : Nat) (w : World σ) : List Record :=
  ((w.since count).filter (Cli.isKept th)).filterMap Occurrence.ofRuns?

/-- A log that shows information shows all records about runs. -/
theorem Occurrence.filterMap_ofRuns? {th : Thresholds} (hth : th.lets .info = true)
    (os : List Occurrence) :
    (os.filter (Cli.isKept th)).filterMap Occurrence.ofRuns? = os.filterMap Occurrence.ofRuns? := by
  rw [List.filterMap_filter]
  refine List.filterMap_congr fun o _ => ?_
  split
  · rfl
  · next hkept =>
    cases o with
    | logged r =>
      have hlevel : r.level ≠ .info := by
        intro hlevel
        exact hkept (by rw [Cli.isKept, hlevel, hth])
      have hnot : r.isOfRuns = false := by simp [Record.isOfRuns, hlevel]
      change none = (some r).filter Record.isOfRuns
      rw [Option.filter_some, hnot]
      rfl
    | _ => rfl

/-- A log that shows information shows the records that were made about runs. -/
theorem World.Records.runLog_eq {n : Nat} {rs : List Record} {w w' : World σ}
    (h : w.Records n rs w') {th : Thresholds} (hth : th.lets .info = true) :
    w'.runLog th w.past.length = rs := by
  obtain ⟨os, hpast, hos⟩ := h.past
  rw [World.runLog, World.since_eq hpast, Occurrence.filterMap_ofRuns? hth, hos]

/-- Giving a run up makes no record about runs. -/
theorem Traffic.records_giveUp (h : Host σ) [h.KeepsTo Occurrence.IsOutside] (s : StartedRun)
    (w : World σ) : w.Records 0 [] ((giveUp h s).run w).2 := by
  have hreleased (w : World σ) := World.records_released w
  unfold giveUp
  split
  · unfold Run.close
    cases s.run.phase with
    | between | reloaded => exact hreleased w
    | fresh | pacing | asking | ended => exact Act.Frame.refl w
  · rw [StateT.run_map]
    unfold Run.cancel
    cases s.run.phase with
    | pacing =>
      dsimp only
      rw [Run.run_within, Act.exec_throw]
      exact hreleased w
    | asking q since =>
      cases s.run.remaining with
      | nil => exact Act.Frame.refl w
      | cons a rest =>
        dsimp only
        rw [Run.run_within, Run.exec_timed_abandon]
        have habandon := Act.Ordinary.respects (Host.KeepsTo.allows_records h)
          (.timed a since (.abandon q)) w
        exact habandon.then_nothing (hreleased _)
    | fresh | between | reloaded | ended => exact Act.Frame.refl w

/-- A run that is cancelled or closed makes no record about runs then. -/
theorem Traffic.records_take (h : Host σ) [h.KeepsTo Occurrence.IsOutside] {t : Traffic σ} {k : Nat}
    {s : StartedRun} (hs : t.runs[k]? = some s) {turn : Turn}
    (hturn : turn = .cancel k ∨ turn = .close k) :
    t.world.Records 0 [] (t.take h turn).world := by
  rw [take_eq_drive_giveUp hturn, drive_of_getElem? hs]
  exact records_giveUp h s t.world

namespace Attributed

variable {w₀ : World σ} {ds : List (Nat × Deed)} {t : Traffic σ} {told : List (Nat × Record)}

/-- A log that shows information shows the records. -/
theorem runLog_eq (hatt : Attributed w₀ ds t told) {th : Thresholds} (hth : th.lets .info = true) :
    t.world.runLog th w₀.past.length = told.map (·.2) := hatt.records.runLog_eq hth

/-- The records that carry the id of a run are those of this run. -/
theorem filter_runId? (hatt : Attributed w₀ ds t told) (k : Nat) :
    (told.map (·.2)).filter (·.runId? = some (idIn w₀.runIds ds k)) = recordsOf k told := by
  unfold recordsOf
  rw [List.filter_map]
  congr 1
  refine List.filter_congr fun x hx => ?_
  obtain ⟨hmem, hcarries⟩ := hatt.ids x hx
  have hsame : idIn w₀.runIds ds x.1 = idIn w₀.runIds ds k ↔ x.1 = k :=
    ⟨idIn_inj hmem, fun heq => by rw [heq]⟩
  simp [hcarries, hsame]

end Attributed

/-- **Records stay attributed to their run.** Whatever is done with any number of runs has a
history. At every moment of a history no two runs have the same id, and every record about runs that
a log at the level of information or below shows carries the id of a run that has begun. The records
that carry the id of a run are its chronicle: it begins, it takes up its actions in order and each
of them once, and if it has reloaded the surface or finished, this comes last. Once the run has
ended, nothing more carries its id, whatever happens next. A run that is cancelled or closed is over
then, so that it cannot go on, and no record about runs is made when it is given up. -/
theorem Traffic.keeps_records_apart (h : Host σ) [h.KeepsTo Occurrence.IsOutside] (w₀ : World σ)
    {th : Thresholds} (hth : th.lets .info = true) :
    (∀ turns, ∃ ds, History h ⟨w₀, []⟩ ds (Traffic.takeAll h ⟨w₀, []⟩ turns)) ∧
    ∀ ds t, History h ⟨w₀, []⟩ ds t →
      let id := idIn w₀.runIds ds
      let log := t.world.runLog th w₀.past.length
      (begun ds).Nodup ∧
      (∀ j ∈ begun ds, ∀ k ∈ begun ds, id j = id k → j = k) ∧
      (∀ r ∈ log, ∃ k ∈ begun ds, r.runId? = some (id k)) ∧
      (∀ k ∈ begun ds, ∃ s x, t.runs[k]? = some s ∧ s.workflow = some x ∧
        Run.Chronicle w₀.sequencer.pacing x (id k) (deedsOf k ds)
          (log.filter (·.runId? = some (id k)))) ∧
      (∀ k ∈ begun ds, (∀ s, t.runs[k]? = some s → s.run.phase = .ended) →
        ∀ ds' t', History h t ds' t' →
          (t'.world.runLog th w₀.past.length).filter (·.runId? = some (id k)) =
            log.filter (·.runId? = some (id k))) ∧
      ∀ k s turn, t.runs[k]? = some s → turn = .cancel k ∨ turn = .close k →
        (t.take h turn).IsOver h k ∧ (∃ ds', History h t ds' (t.take h turn)) ∧
          (t.take h turn).world.runLog th w₀.past.length = log := by
  refine ⟨History.exists_takeAll h nofun, fun ds t hist => ?_⟩
  obtain ⟨told, hatt, -⟩ := hist.attributed (.nil w₀)
  rw [List.nil_append, List.nil_append] at hatt
  have hstarted {k : Nat} (hk : k ∈ begun ds) : ∃ s, t.runs[k]? = some s := by
    have hlt : k < t.runs.length := by
      by_contra hge
      rw [mem_begun_iff, hatt.later k (Nat.not_lt.mp hge)] at hk
      cases hk
    exact ⟨_, List.getElem?_eq_getElem hlt⟩
  intro id log
  have hlog : log = told.map (·.2) := hatt.runLog_eq hth
  refine ⟨hatt.nodup, fun j hj k _ => idIn_inj hj, ?_, fun k hk => ?_, ?_,
    fun k s turn hs hturn => ?_⟩
  · rw [hlog]
    intro r hr
    obtain ⟨x, hx, rfl⟩ := List.mem_map.mp hr
    exact ⟨x.1, hatt.ids x hx⟩
  · obtain ⟨s, hs⟩ := hstarted hk
    obtain ⟨x, hx, hchronicle⟩ := (hatt.keeps k s hs).chronicle (mem_begun_iff.mp hk)
    refine ⟨s, x, hs, hx, ?_⟩
    rw [hlog, hatt.filter_runId? k]
    exact hchronicle
  · intro k hk hended ds' t' hist'
    obtain ⟨s, hs⟩ := hstarted hk
    obtain ⟨more, hatt', hnone⟩ := hist'.attributed hatt
    have hid : id k = idIn w₀.runIds (ds ++ ds') k := (idIn_append hk).symm
    have hsame : recordsOf k (told ++ more) = recordsOf k told := by
      rw [recordsOf_append, (hnone k s hs (hended s hs)).2, List.append_nil]
    rw [hlog, hatt.filter_runId? k, hid, hatt'.runLog_eq hth, hatt'.filter_runId? k, hsame]
  · have hsound := hist.isSound (h := h) nofun
    obtain ⟨ds', hist'⟩ := History.take (.nil : History h t [] t) hsound turn
    have hrecords := hatt.records.then_nothing (Traffic.records_take h hs hturn)
    exact ⟨isOver_take hs hturn, ⟨_, hist'⟩, (hrecords.runLog_eq hth).trans hlog.symm⟩

/-- The log keeps two runs apart: one of them reloads the surface while the dialog of the other one
waits, which is cancelled then and cannot go on. -/
theorem Traffic.keeps_records_apart_of_dialog :
    let asks : Workflow := ⟨"Go", [⟨"a1", .alert, none⟩]⟩
    let reloads : Workflow := ⟨"On", [⟨"b1", .refreshPage, none⟩]⟩
    let w : World HostScript := {
      surface := .fresh, shelf := ⟨.memory [], ⟨[], [], []⟩⟩, sequencer := .paced 5
      host := { suspended := ["alert"] } }
    let t := Traffic.takeAll HostScript.host ⟨w, []⟩ [.start (some asks) false,
      .start (some reloads) false, .resume 0, .resume 1, .resume 0, .resume 1]
    let t' := t.take HostScript.host (.cancel 0)
    let th : Thresholds := .initial .info false
    th.lets .info = true ∧
    (∃ ds, History HostScript.host ⟨w, []⟩ ds t ∧
      ∀ k ∈ begun ds, ∃ s x, t.runs[k]? = some s ∧ s.workflow = some x ∧
        Run.Chronicle 5 x (idIn 0 ds k) (deedsOf k ds)
          ((t.world.runLog th 0).filter (·.runId? = some (idIn 0 ds k)))) ∧
    t'.take HostScript.host (.resume 0) = t' ∧ t'.world.runLog th 0 = t.world.runLog th 0 ∧
    ((t'.world.runLog th 0).filter (·.runId? = some (Run.idOf 1))).map (·.message) =
      [("Starting workflow 'Go' (actions=1, pacing=5 ms)" : Text), "Step 1/1: alert"] ∧
    ((t'.world.runLog th 0).filter (·.runId? = some (Run.idOf 2))).map (·.message) =
      [("Starting workflow 'On' (actions=1, pacing=5 ms)" : Text), "Step 1/1: refreshPage",
        "Surface reloaded, run ends here"] := by
  intro asks reloads w t t' th
  have hth : th.lets .info = true := by decide
  obtain ⟨hall, hkept⟩ := Traffic.keeps_records_apart HostScript.host w hth
  obtain ⟨ds, hist⟩ := hall [.start (some asks) false, .start (some reloads) false, .resume 0,
    .resume 1, .resume 0, .resume 1]
  obtain ⟨-, -, -, hchronicles, -, hgivenUp⟩ := hkept ds t hist
  obtain ⟨s, hs⟩ : ∃ s, t.runs[0]? = some s := ⟨_, rfl⟩
  obtain ⟨hover, -, hsame⟩ := hgivenUp 0 s (.cancel 0) hs (.inl rfl)
  refine ⟨hth, ⟨ds, hist, hchronicles⟩, hover.resume, hsame, ?_, ?_⟩
  · decide +kernel
  · decide +kernel

end PushButton
