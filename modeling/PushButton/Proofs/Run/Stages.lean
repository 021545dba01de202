import PushButton.Proofs.Run.Accounts
import PushButton.Proofs.Run.Overlap
import PushButton.Proofs.Run.Times

/-!
# The stages of a run

A run begins, goes on and ends, and its deeds show how far it has come: nothing was done as long as
it is fresh, it has begun first of all while it is active, and it has ended last of all. There is
one exception. A run whose beginning fails, because an observer fails when lines and images are
taken away, has begun and goes no further, but it does not end properly.
-/

namespace PushButton

variable {σ : Type}

/-! ## Observers that fail -/

/-- The observer fails when it is told that lines and images were taken away. -/
def Listener.FailsAtClearing (l : Listener) : Prop :=
  ∃ field s past, (field = .output ∨ field = .images) ∧ s.output = [] ∧ s.images = [] ∧
    (l.react field s past).failure ≠ none

namespace Act

/-- In a row of steps that fails, one of the steps fails in a world of which everything holds that
the steps keep. The induction is on the steps. -/
theorem exists_of_exec_forM_error {α : Type} {items : List α} {act : α → Act σ PUnit}
    {P : World σ → Prop} (hkeeps : ∀ x w, P w → P ((act x).exec w).2) {w w' : World σ} {f : Failure}
    (hw : P w) (herror : (items.forM act).exec w = (.error f, w')) :
    ∃ x ∈ items, ∃ u u', P u ∧ (act x).exec u = (.error f, u') := by
  induction items generalizing w with
  | nil => cases herror
  | cons x rest ih =>
    have hfirst := hkeeps x w hw
    change (act x >>= fun _ => rest.forM act).exec w = _ at herror
    rw [exec_bind] at herror
    cases hx : (act x).exec w with
    | mk res w₁ =>
      rw [hx] at herror hfirst
      cases res with
      | error f' =>
        obtain ⟨hf, -⟩ := Prod.mk.inj herror
        cases hf
        exact ⟨x, by simp, w, w₁, hw, hx⟩
      | ok _ =>
        obtain ⟨y, hy, hfails⟩ := ih hfirst herror
        exact ⟨y, by simp [hy], hfails⟩

/-- Telling an observer fails only as the observer does. -/
theorem failure_of_exec_tell {field : Field} {l : Listener} {w w' : World σ} {f : Failure}
    (herror : (tell field l).exec w = (.error f, w')) :
    (l.react field w.surface w.past).failure = some f := by
  unfold tell at herror
  simp only [exec_bind, exec_get, exec_occur] at herror
  generalize w.after [_] = w₁ at herror
  generalize hreaction : l.react field w.surface w.past = reaction at herror ⊢
  cases hprints : (reaction.prints.forM fun t => occur (.printed t)).exec w₁ with
  | mk res w₂ =>
    rw [hprints] at herror
    cases res with
    | error f' =>
      obtain ⟨t, -, u, u', -, hprint⟩ :=
        exists_of_exec_forM_error (P := fun _ => True) (fun _ _ _ => trivial) trivial hprints
      cases hprint
    | ok _ =>
      cases hfailure : reaction.failure with
      | none =>
        rw [hfailure] at herror
        cases herror
      | some f' =>
        rw [hfailure] at herror
        obtain ⟨hf, -⟩ := Prod.mk.inj herror
        cases hf
        rfl

/-- Telling all observers fails only as one of them does. -/
theorem exists_of_exec_notify_error {field : Field} {w w' : World σ} {f : Failure}
    (herror : (notify field).exec w = (.error f, w')) :
    ∃ l ∈ w.listeners, ∃ past, (l.react field w.surface past).failure = some f := by
  unfold notify at herror
  rw [exec_bind, exec_get] at herror
  have hkeeps (l : Listener) (u : World σ) (hu : u.surface = w.surface) :
      ((tell field l).exec u).2.surface = w.surface :=
    (congrArg World.surface (quiet_tell field l u).rest).trans hu
  obtain ⟨l, hl, u, u', hsurface, hfails⟩ := exists_of_exec_forM_error hkeeps rfl herror
  exact ⟨l, hl, u.past, hsurface ▸ failure_of_exec_tell hfails⟩

/-- Taking lines and images away fails only as an observer does. -/
theorem exists_of_exec_clear_error {w w' : World σ} {f : Failure}
    (herror : clear.exec w = (.error f, w')) : ∃ l ∈ w.listeners, l.FailsAtClearing := by
  have hquiet := quiet_notify .output { w with surface := w.surface.cleared }
  unfold clear change at herror
  simp only [exec_bind, exec_modify] at herror
  cases houtput : (notify .output).exec { w with surface := w.surface.cleared } with
  | mk res w₁ =>
    rw [houtput] at herror hquiet
    cases res with
    | error f' =>
      obtain ⟨l, hl, past, hfails⟩ := exists_of_exec_notify_error houtput
      exact ⟨l, hl, .output, w.surface.cleared, past, .inl rfl, rfl, rfl, by simp [hfails]⟩
    | ok _ =>
      obtain ⟨l, hl, past, hfails⟩ := exists_of_exec_notify_error herror
      have hsurface : w₁.surface = w.surface.cleared := congrArg World.surface hquiet.rest
      rw [hsurface] at hfails
      exact ⟨l, hquiet.listeners.subset hl, .images, w.surface.cleared, past, .inr rfl, rfl, rfl,
        by simp [hfails]⟩

end Act

/-- A run fails to begin only as an observer does. -/
theorem Run.exists_of_exec_begin_error {r : Run} {w w' : World σ} {f : Failure}
    (herror : r.begin.exec w = (.error f, w')) : ∃ l ∈ w.listeners, l.FailsAtClearing := by
  rw [exec_begin] at herror
  cases hclear : Act.clear.exec (r.numbered w) with
  | mk res w₁ =>
    rw [hclear] at herror
    cases res with
    | error f' =>
      have hfails : ∃ l ∈ (r.numbered w).listeners, l.FailsAtClearing :=
        Act.exists_of_exec_clear_error hclear
      exact hfails
    | ok _ => cases herror

/-! ## The course of a run -/

namespace Phase

/-- A run in the phase has begun and not ended. -/
def isActive : Phase → Bool
  | .fresh | .ended => false
  | _ => true

/-- A run that has taken up an action or waits in front of one is active. -/
theorem isActive_of_isInside {ph : Phase} (hinside : ph.isInside = true) : ph.isActive = true := by
  cases ph with
  | pacing | asking => rfl
  | fresh | between | reloaded | ended => cases hinside

end Phase

/-- Deeds that neither begin nor end a run. -/
def ArePlain (ds : List Deed) : Prop := ∀ d ∈ ds, d.isBegan = false ∧ d.isLeft = false

/-- No deed begins or ends a run. -/
theorem arePlain_nil : ArePlain [] := nofun

/-- An attempt neither begins nor ends a run. -/
theorem arePlain_attemptDeeds (h : Host σ) (mayWait : Bool) (r : Run) (a : Action) (w : World σ) :
    ArePlain (r.attemptDeeds h mayWait a w) := by
  unfold Run.attemptDeeds ArePlain
  split
  · simp [Deed.isBegan, Deed.isLeft]
  · simp [Deed.isBegan, Deed.isLeft]

/-- Plain deeds after others. -/
theorem ArePlain.append {ds ds' : List Deed} (h : ArePlain ds) (h' : ArePlain ds') :
    ArePlain (ds ++ ds') := by
  intro d hd
  obtain hd | hd := List.mem_append.mp hd
  · exact h d hd
  · exact h' d hd

/-- What a move means for the course of a run. -/
inductive Course (r r' : Run) : List Deed → Prop
  /-- It begins. -/
  | begins : r.phase = .fresh → r.remaining ≠ [] → r'.phase.isActive = true → Course r r' [.began]
  /-- It ends without having begun. -/
  | drops : r.phase = .fresh → r'.phase = .ended → Course r r' []
  /-- It goes on. -/
  | goes {ds : List Deed} : r.phase.isActive = true → r'.phase.isActive = true → ArePlain ds →
      Course r r' ds
  /-- It ends. -/
  | ends {ds : List Deed} (e : Ending) : r.phase.isActive = true → r'.phase = .ended →
      ArePlain ds → Course r r' (ds ++ [.left e])

/-- A run that has not begun begins or is dropped, and one that has begun goes on or ends, unless a
run fails to begin. -/
theorem Move.course {h : Host σ} {x y : World σ × Run} {ds : List Deed} (hmove : Move h x ds y) :
    Course x.2 y.2 ds ∨ x.2.phase = .fresh ∧ x.2.remaining ≠ [] ∧ y.2.phase = .ended ∧
      ds = [.began] ∧ ∃ l ∈ x.1.listeners, l.FailsAtClearing := by
  have hplain {mayWait : Bool} {r : Run} {a : Action} {w : World σ} {ds : List Deed}
      (hds : ArePlain ds) : ArePlain (r.attemptDeeds h mayWait a w ++ ds) :=
    (arePlain_attemptDeeds h mayWait r a w).append hds
  have happlied {i : Nat} {a : Action} : ArePlain [.applied i a] := by
    simp [ArePlain, Deed.isBegan, Deed.isLeft]
  have hremade {i : Nat} {a : Action} : ArePlain [.applied i a, .remade] := by
    simp [ArePlain, Deed.isBegan, Deed.isLeft]
  have hactive {ph : Phase} {r : Run} (hph : r.phase = ph) (h : ph.isActive = true) :
      r.phase.isActive = true := hph ▸ h
  cases hmove with
  | idles hph | drops hph => exact .inl (.drops hph rfl)
  | begins hph hrem => exact .inl (.begins hph hrem rfl)
  | beginFails hph hrem hbegin =>
    exact .inr ⟨hph, hrem, rfl, rfl, Run.exists_of_exec_begin_error hbegin⟩
  | waits hph => exact .inl (.goes (hactive hph rfl) rfl arePlain_nil)
  | asks hinside =>
    exact .inl (.goes (Phase.isActive_of_isInside hinside) rfl (arePlain_attemptDeeds _ _ _ _ _))
  | proceeds hinside =>
    exact .inl (.goes (Phase.isActive_of_isInside hinside) rfl (hplain happlied))
  | reloads hinside =>
    exact .inl (.goes (Phase.isActive_of_isInside hinside) rfl (hplain hremade))
  | @reloadFails w w' w'' r r' a rest mayWait f hinside _ _ _ hended =>
    have hcourse : Course r r'
        (r.attemptDeeds h mayWait a w ++ [.applied r.index a, .remade] ++ [.left .failed]) :=
      .ends .failed (Phase.isActive_of_isInside hinside) hended (hplain hremade)
    rw [List.append_assoc] at hcourse
    exact .inl hcourse
  | fails hinside _ _ hended =>
    exact .inl (.ends .failed (Phase.isActive_of_isInside hinside) hended
      (arePlain_attemptDeeds _ _ _ _ _))
  | finishes hph _ _ hended => exact .inl (.ends .finished (hactive hph rfl) hended arePlain_nil)
  | ends hph hended => exact .inl (.ends .reloaded (hactive hph rfl) hended arePlain_nil)
  | cancelsPacing hph hended =>
    exact .inl (.ends .cancelled (hactive hph rfl) hended arePlain_nil)
  | cancelsAsking hph _ hended =>
    exact .inl (.ends .cancelled (hactive hph rfl) hended arePlain_nil)
  | closes hph hended =>
    obtain hph | hph := hph
    · exact .inl (.ends .closed (hactive hph rfl) hended arePlain_nil)
    · exact .inl (.ends .closed (hactive hph rfl) hended arePlain_nil)

/-! ## What the deeds of a run show -/

section Lists

variable {ds : List (Nat × Deed)} {k : Nat}

/-- A run has begun if that is one of its deeds. -/
theorem mem_begun_iff : k ∈ begun ds ↔ .began ∈ deedsOf k ds := by
  rw [mem_deedsOf]
  unfold begun
  simp only [List.mem_map, List.mem_filter, Prod.exists]
  constructor
  · rintro ⟨j, d, ⟨hmem, hbegan⟩, rfl⟩
    cases d with
    | began => exact hmem
    | _ => cases hbegan
  · exact fun hmem => ⟨k, .began, ⟨hmem, rfl⟩, rfl⟩

/-- A run has ended if that is one of its deeds. -/
theorem mem_ended_iff : k ∈ ended ds ↔ ∃ e, .left e ∈ deedsOf k ds := by
  simp only [mem_deedsOf]
  unfold ended
  simp only [List.mem_map, List.mem_filter, Prod.exists]
  constructor
  · rintro ⟨j, d, ⟨hmem, hleft⟩, rfl⟩
    cases d with
    | left e => exact ⟨e, hmem⟩
    | _ => cases hleft
  · exact fun ⟨e, hmem⟩ => ⟨k, .left e, ⟨hmem, rfl⟩, rfl⟩

/-- A run is under way if it has begun and not ended, by its deeds. -/
theorem mem_underWay_iff :
    k ∈ underWay ds ↔ .began ∈ deedsOf k ds ∧ ∀ e, .left e ∉ deedsOf k ds := by
  rw [mem_underWay, mem_begun_iff, mem_ended_iff, not_exists]

end Lists

/-- The deeds that a run in a phase can have done, where these observers were there. -/
inductive Phase.Suits (ls : List Listener) : Phase → List Deed → Prop
  /-- A run that has not begun. -/
  | fresh : Suits ls .fresh []
  /-- A run that was given up before it has begun, or that had nothing to do. -/
  | dropped : Suits ls .ended []
  /-- A run that has failed to begin. -/
  | stuck {l : Listener} : l ∈ ls → l.FailsAtClearing → Suits ls .ended [.began]
  /-- A run that has begun and not ended. -/
  | active {ph : Phase} {ds : List Deed} : ph.isActive = true → ArePlain ds →
      Suits ls ph (.began :: ds)
  /-- A run that has ended. -/
  | left {ds : List Deed} (e : Ending) : ArePlain ds → Suits ls .ended (.began :: ds ++ [.left e])

namespace Phase.Suits

variable {ls : List Listener} {ph : Phase} {ds : List Deed}

/-- A fresh run has done nothing. -/
theorem eq_nil (h : ph.Suits ls ds) (hph : ph = .fresh) : ds = [] := by
  subst hph
  cases h with
  | fresh => rfl
  | active hactive => cases hactive

/-- A run in the middle of its course has begun and done nothing else of importance. -/
theorem exists_plain (h : ph.Suits ls ds) (hactive : ph.isActive = true) :
    ∃ ds', ds = .began :: ds' ∧ ArePlain ds' := by
  cases h with
  | active _ hplain => exact ⟨_, rfl, hplain⟩
  | fresh | dropped | stuck | left => cases hactive

/-- What a move means for the course of a run keeps phase and deeds together. -/
theorem goes {r r' : Run} {ds' : List Deed} (h : r.phase.Suits ls ds) (hcourse : Course r r' ds') :
    r'.phase.Suits ls (ds ++ ds') := by
  cases hcourse with
  | begins hph _ hactive =>
    rw [h.eq_nil hph]
    exact .active hactive arePlain_nil
  | drops hph hended =>
    rw [h.eq_nil hph, hended]
    exact .dropped
  | goes hactive hactive' hplain' =>
    obtain ⟨ds, rfl, hplain⟩ := h.exists_plain hactive
    exact .active hactive' (hplain.append hplain')
  | @ends ds' e hactive hended hplain' =>
    obtain ⟨ds, rfl, hplain⟩ := h.exists_plain hactive
    have hleft : Phase.Suits ls .ended (.began :: (ds ++ ds') ++ [.left e]) :=
      .left e (hplain.append hplain')
    rw [hended, ← List.append_assoc]
    exact hleft

end Phase.Suits

/-- The deeds of a run that was started show how far it has come. -/
structure StartedRun.Shows (ls : List Listener) (s : StartedRun) (ds : List Deed) : Prop where
  /-- They suit its phase. -/
  suits : s.run.phase.Suits ls ds
  /-- All actions of a fresh run are left. -/
  fresh : s.run.phase = .fresh → s.run.remaining = s.actions
  /-- A run that has begun has something to do. -/
  begun : .began ∈ ds → s.actions ≠ []

/-- A move keeps what the deeds of a run show. -/
theorem StartedRun.Shows.moves {h : Host σ} {w₀ w w' : World σ} {s : StartedRun} {r : Run}
    {ds ds' : List Deed} (hshows : s.Shows w₀.listeners ds)
    (hlisteners : w.listeners.Sublist w₀.listeners) (hmove : Move h (w, s.run) ds' (w', r)) :
    StartedRun.Shows w₀.listeners { s with run := r } (ds ++ ds') := by
  obtain hcourse | ⟨hph, hrem, hended, rfl, l, hl, hfails⟩ := hmove.course
  · have hactive (hactive : r.phase.isActive = true) (hfresh : r.phase = .fresh) : False := by
      rw [hfresh] at hactive
      cases hactive
    have hended (hended : r.phase = .ended) (hfresh : r.phase = .fresh) : False := by
      rw [hended] at hfresh
      cases hfresh
    refine ⟨hshows.suits.goes hcourse, fun hfresh => ?_, fun hbegun => ?_⟩
    · cases hcourse with
      | begins _ _ h | goes _ h => exact (hactive h hfresh).elim
      | drops _ h | ends _ _ h => exact (hended h hfresh).elim
    · cases hcourse with
      | begins hph hrem => exact hshows.fresh hph ▸ hrem
      | drops =>
        rw [List.append_nil] at hbegun
        exact hshows.begun hbegun
      | goes h | ends _ h =>
        obtain ⟨rest, hds, -⟩ := hshows.suits.exists_plain h
        exact hshows.begun (by simp [hds])
  · change r.phase = .ended at hended
    refine ⟨?_, fun hfresh => ?_, fun _ => hshows.fresh hph ▸ hrem⟩
    · change r.phase.Suits w₀.listeners (ds ++ [.began])
      rw [hshows.suits.eq_nil hph, hended]
      exact .stuck (hlisteners.subset hl) hfails
    · cases hended.symm.trans hfresh

namespace History

variable {h : Host σ} {w₀ : World σ} {t : Traffic σ} {ds : List (Nat × Deed)}

/-- The deeds of all runs show how far they have come, and runs that were not started have done
nothing. -/
theorem shows_runs (hist : History h ⟨w₀, []⟩ ds t) :
    (∀ k, t.runs.length ≤ k → deedsOf k ds = []) ∧
      ∀ k (s : StartedRun), t.runs[k]? = some s → s.Shows w₀.listeners (deedsOf k ds) := by
  refine hist.forall_runs (P := fun (s : StartedRun) ds => s.Shows w₀.listeners ds)
    (fun workflow stepwise => ?_) fun hlisteners hshows hmove => hshows.moves hlisteners hmove
  refine ⟨?_, fun _ => Run.remaining_ofWorkflow workflow, nofun⟩
  have hphase : (StartedRun.new workflow stepwise).run.phase = .fresh :=
    Run.phase_ofWorkflow workflow
  rw [hphase]
  exact .fresh

/-- A run that shows its deeds was started, where it has done something. -/
theorem exists_shows (hist : History h ⟨w₀, []⟩ ds t) {k : Nat} (hk : deedsOf k ds ≠ []) :
    ∃ s, t.runs[k]? = some s ∧ s.Shows w₀.listeners (deedsOf k ds) := by
  obtain ⟨hlater, hruns⟩ := hist.shows_runs
  have hlt : k < t.runs.length := by
    by_contra hge
    exact hk (hlater k (Nat.not_lt.mp hge))
  have hs : t.runs[k]? = some t.runs[k] := List.getElem?_eq_getElem hlt
  exact ⟨_, hs, hruns k _ hs⟩

end History

/-- The run has failed to begin: that is all it has done, and it goes no further. -/
def Run.FailedToBegin (r : Run) (ds : List Deed) : Prop := r.phase = .ended ∧ ds = [.began]

namespace Phase.Suits

variable {ls : List Listener} {r : Run} {ds : List Deed}

/-- A run fails to begin only because of an observer. -/
theorem exists_failing (h : r.phase.Suits ls ds) (hfailed : r.FailedToBegin ds) :
    ∃ l ∈ ls, l.FailsAtClearing := by
  obtain ⟨hended, rfl⟩ := hfailed
  generalize r.phase = ph at h hended
  generalize hds : [Deed.began] = ds at h
  cases h with
  | fresh | dropped => cases hds
  | stuck hl hfails => exact ⟨_, hl, hfails⟩
  | active hactive =>
    rw [hended] at hactive
    cases hactive
  | left => simp at hds

/-- A run is active or has failed to begin where it has begun and not ended. -/
theorem underWay_iff (h : r.phase.Suits ls ds) :
    .began ∈ ds ∧ (∀ e, .left e ∉ ds) ↔ r.phase.isActive = true ∨ r.FailedToBegin ds := by
  unfold Run.FailedToBegin
  generalize r.phase = ph at h
  cases h with
  | fresh | dropped => simp [Phase.isActive]
  | stuck => simp
  | @active ph ds hactive hplain =>
    have hnot (e : Ending) : .left e ∉ Deed.began :: ds := by
      intro he
      obtain hhead | hrest := List.mem_cons.mp he
      · cases hhead
      · cases (hplain _ hrest).2
    simp [hactive, hnot]
  | @left ds e _ =>
    refine ⟨fun ⟨_, hleft⟩ => (hleft e (by simp)).elim, ?_⟩
    simp [Phase.isActive]

end Phase.Suits

/-! ## Orderly histories -/

/-- Plain deeds of a run that is under way leave the same runs begun and under way. The induction is
on the deeds. -/
theorem Orderly.append_plain {ds : List (Nat × Deed)} {ds' : List Deed} {k : Nat} (h : Orderly ds)
    (hk : k ∈ underWay ds) (hplain : ArePlain ds') : Orderly (ds ++ ds'.map (k, ·)) ∧
      begun (ds ++ ds'.map (k, ·)) = begun ds ∧ underWay (ds ++ ds'.map (k, ·)) = underWay ds := by
  induction ds' generalizing ds with
  | nil =>
    rw [List.map_nil, List.append_nil]
    exact ⟨h, rfl, rfl⟩
  | cons d rest ih =>
    obtain ⟨hbegan, hleft⟩ := hplain d (by simp)
    have hbegun : begun (ds ++ [(k, d)]) = begun ds := begun_append_of_ne hbegan
    have hunderWay : underWay (ds ++ [(k, d)]) = underWay ds := underWay_append_of_ne hbegan hleft
    have hrest := ih (h.within hk hbegan hleft) (hunderWay ▸ hk)
      fun d' hd' => hplain d' (by simp [hd'])
    rw [hbegun, hunderWay, List.append_assoc] at hrest
    exact hrest

/-- The deeds of a history are in order, whether or not runs fail to begin. The induction is on the
history. -/
theorem History.orderly {h : Host σ} {w₀ : World σ} {t : Traffic σ} {ds : List (Nat × Deed)}
    (hist : History h ⟨w₀, []⟩ ds t) : Orderly ds := by
  generalize hstart : (⟨w₀, []⟩ : Traffic σ) = t₀ at hist
  induction hist with
  | nil => exact .nil
  | started _ _ _ ih => exact ih
  | @moved ds ds' t k s w r hist hs hmove ih =>
    subst hstart
    have hsuits := (hist.shows_runs.2 k s hs).suits
    have hnew (hph : s.run.phase = .fresh) : k ∉ begun ds := by
      rw [mem_begun_iff, hsuits.eq_nil hph]
      nofun
    have hunderWay (hactive : s.run.phase.isActive = true) : k ∈ underWay ds :=
      mem_underWay_iff.mpr (hsuits.underWay_iff.mpr (.inl hactive))
    obtain hcourse | ⟨hph, -, -, rfl, -⟩ := hmove.course
    · cases hcourse with
      | begins hph => exact ih.began (hnew hph)
      | drops =>
        rw [List.map_nil, List.append_nil]
        exact ih
      | goes hactive _ hplain => exact (ih.append_plain (hunderWay hactive) hplain).1
      | ends e hactive _ hplain =>
        obtain ⟨horderly, -, hsame⟩ := ih.append_plain (hunderWay hactive) hplain
        rw [List.map_append, List.map_singleton, ← List.append_assoc]
        exact horderly.left e (hsame ▸ hunderWay hactive)
    · exact ih.began (hnew hph)

/-- The runs under way are those that are active and those that have failed to begin. -/
theorem History.mem_underWay {h : Host σ} {w₀ : World σ} {t : Traffic σ} {ds : List (Nat × Deed)}
    (hist : History h ⟨w₀, []⟩ ds t) {k : Nat} : k ∈ underWay ds ↔ ∃ s, t.runs[k]? = some s ∧
      (s.run.phase.isActive = true ∨ s.run.FailedToBegin (deedsOf k ds)) := by
  rw [mem_underWay_iff]
  constructor
  · intro hk
    obtain ⟨s, hs, hshows⟩ := hist.exists_shows (List.ne_nil_of_mem hk.1)
    exact ⟨s, hs, hshows.suits.underWay_iff.mp hk⟩
  · rintro ⟨s, hs, hstage⟩
    exact (hist.shows_runs.2 k s hs).suits.underWay_iff.mpr hstage

end PushButton
