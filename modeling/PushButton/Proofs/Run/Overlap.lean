import PushButton.Host.Scripted
import PushButton.Proofs.Run.History

/-!
# Overlapping runs

Runs that overlap share one surface, and nothing keeps them apart. Still each of them applies its
own actions in order and leaves none out, and the surface shows exactly the lines and images that
all of them have put out since these were last taken away.
-/

namespace PushButton

variable {σ : Type}

/-! ## The order of the actions of a run -/

namespace Run

/-- A run has taken some of its actions, in order and each one once, and the others are left. It has
finished only if none is left. -/
def Takes (r : Run) (ds : List Deed) (r' : Run) : Prop :=
  ∃ taken left, r.remaining = taken ++ left ∧
    ds.filterMap Deed.applied? = taken.zipIdx r.index ∧ (.left .finished ∈ ds → left = []) ∧
    (r'.phase ≠ .ended →
      r'.remaining = left ∧ r'.index = r.index + taken.length ∧ .left .finished ∉ ds)

/-- A run that takes no action and goes on. -/
theorem takes_nothing {r r' : Run} {ds : List Deed} (happlied : ds.filterMap Deed.applied? = [])
    (hfinished : .left .finished ∉ ds) (hremaining : r'.remaining = r.remaining)
    (hindex : r'.index = r.index) : r.Takes ds r' :=
  ⟨[], r.remaining, rfl, happlied, fun h => (hfinished h).elim,
    fun _ => ⟨hremaining, hindex, hfinished⟩⟩

/-- A run that takes no action and ends. -/
theorem takes_nothing_ended {r r' : Run} {ds : List Deed}
    (happlied : ds.filterMap Deed.applied? = [])
    (hfinished : .left .finished ∈ ds → r.remaining = []) (hended : r'.phase = .ended) :
    r.Takes ds r' :=
  ⟨[], r.remaining, rfl, happlied, hfinished, fun h => (h hended).elim⟩

/-- A run that takes one action. -/
theorem takes_one {r r' : Run} {a : Action} {rest : List Action} {ds : List Deed}
    (hrem : r.remaining = a :: rest) (happlied : ds.filterMap Deed.applied? = [(a, r.index)])
    (hfinished : .left .finished ∉ ds)
    (hnext : r'.phase ≠ .ended → r'.remaining = rest ∧ r'.index = r.index + 1) : r.Takes ds r' :=
  ⟨[a], rest, hrem, happlied, fun h => (hfinished h).elim, fun h =>
    ⟨(hnext h).1, (hnext h).2, hfinished⟩⟩

/-- A run that goes on takes its actions in one row. -/
theorem Takes.append {r r' r'' : Run} {ds ds' : List Deed} (h : r.Takes ds r')
    (hph : r'.phase ≠ .ended) (h' : r'.Takes ds' r'') : r.Takes (ds ++ ds') r'' := by
  obtain ⟨taken, left, hrem, happlied, -, hgoes⟩ := h
  obtain ⟨hleft, hindex, hfinished⟩ := hgoes hph
  obtain ⟨taken', left', hrem', happlied', hall, hgoes'⟩ := h'
  refine ⟨taken ++ taken', left', ?_, ?_, ?_, ?_⟩
  · rw [hrem, ← hleft, hrem', List.append_assoc]
  · rw [List.filterMap_append, happlied, happlied', hindex, List.zipIdx_append]
  · intro hmem
    obtain hmem | hmem := List.mem_append.mp hmem
    · exact (hfinished hmem).elim
    · exact hall hmem
  · intro hph'
    obtain ⟨hleft', hindex', hfinished'⟩ := hgoes' hph'
    refine ⟨hleft', ?_, ?_⟩
    · rw [hindex', hindex, List.length_append]
      omega
    · intro hmem
      obtain hmem | hmem := List.mem_append.mp hmem
      · exact hfinished hmem
      · exact hfinished' hmem

/-- An attempt applies nothing yet and ends nothing. -/
theorem attemptDeeds_plain (h : Host σ) (mayWait : Bool) (r : Run) (a : Action) (w : World σ) :
    (r.attemptDeeds h mayWait a w).filterMap Deed.applied? = [] ∧
      ∀ d ∈ r.attemptDeeds h mayWait a w, d ≠ .began ∧ ∀ e, d ≠ .left e := by
  unfold attemptDeeds
  split
  · refine ⟨rfl, fun d hd => ?_⟩
    rw [List.mem_singleton.mp hd]
    exact ⟨nofun, nofun⟩
  · refine ⟨rfl, fun d hd => ?_⟩
    obtain rfl | hd := List.mem_cons.mp hd
    · exact ⟨nofun, nofun⟩
    · rw [List.mem_singleton.mp hd]
      exact ⟨nofun, nofun⟩

end Run

/-- A run that has ended makes no move. -/
theorem Move.phase_ne {h : Host σ} {x y : World σ × Run} {ds : List Deed} (hmove : Move h x ds y) :
    x.2.phase ≠ .ended := by
  intro hended
  cases hmove with
  | idles hph | drops hph | begins hph | beginFails hph | waits hph | finishes hph | ends hph
  | cancelsPacing hph | cancelsAsking hph => cases hph.symm.trans hended
  | asks hph | proceeds hph | reloads hph | reloadFails hph | fails hph =>
    change Run.phase _ = _ at hended
    rw [hended] at hph
    cases hph
  | closes hph =>
    obtain hph | hph := hph
    · cases hph.symm.trans hended
    · cases hph.symm.trans hended

/-- In a move a run takes one of its actions or none. -/
theorem Move.takes {h : Host σ} {x y : World σ × Run} {ds : List Deed} (hmove : Move h x ds y) :
    x.2.Takes ds y.2 := by
  have hfinished {mayWait : Bool} {r : Run} {a : Action} {w : World σ} :
      .left .finished ∉ r.attemptDeeds h mayWait a w :=
    fun hmem => ((r.attemptDeeds_plain h mayWait a w).2 _ hmem).2 _ rfl
  have happlied {mayWait : Bool} {r : Run} {a : Action} {w : World σ} (ds : List Deed) :
      (r.attemptDeeds h mayWait a w ++ ds).filterMap Deed.applied? =
        ds.filterMap Deed.applied? := by
    rw [List.filterMap_append, (r.attemptDeeds_plain h mayWait a w).1, List.nil_append]
  cases hmove with
  | idles | drops => exact Run.takes_nothing_ended rfl nofun rfl
  | begins _ _ hbegin =>
    obtain ⟨id, since, rfl⟩ := Run.begin_eq hbegin
    exact Run.takes_nothing rfl (by simp) rfl rfl
  | beginFails => exact Run.takes_nothing_ended rfl (by simp) rfl
  | waits => exact Run.takes_nothing rfl (by simp) rfl rfl
  | @asks w w' r a rest mayWait q since =>
    exact Run.takes_nothing (r.attemptDeeds_plain h mayWait a w).1 hfinished rfl rfl
  | proceeds _ hrem =>
    exact Run.takes_one hrem (happlied _) (by simp [hfinished]) fun _ =>
      ⟨Run.next_remaining hrem, rfl⟩
  | reloads _ hrem =>
    exact Run.takes_one hrem (happlied _) (by simp [hfinished]) fun _ =>
      ⟨Run.next_remaining hrem, rfl⟩
  | reloadFails _ hrem _ _ hended =>
    exact Run.takes_one hrem (happlied _) (by simp [hfinished]) fun hph => (hph hended).elim
  | fails _ _ _ hended =>
    exact Run.takes_nothing_ended (happlied _) (by simp [hfinished]) hended
  | finishes _ hrem _ hended => exact Run.takes_nothing_ended rfl (fun _ => hrem) hended
  | ends _ hended | cancelsPacing _ hended | cancelsAsking _ _ hended | closes _ hended =>
    exact Run.takes_nothing_ended rfl (by simp) hended

/-! ## The deeds of one run -/

/-- The deeds of the run with a number. -/
def deedsOf (k : Nat) (ds : List (Nat × Deed)) : List Deed :=
  ds.filterMap fun x => if x.1 = k then some x.2 else none

/-- The actions that the run with a number has applied, with their positions. -/
def appliedBy (k : Nat) (ds : List (Nat × Deed)) : List (Action × Nat) :=
  (deedsOf k ds).filterMap Deed.applied?

/-- A deed is one of a run's deeds where it stands with the number of the run. -/
theorem mem_deedsOf {k : Nat} {ds : List (Nat × Deed)} {d : Deed} :
    d ∈ deedsOf k ds ↔ (k, d) ∈ ds := by
  unfold deedsOf
  rw [List.mem_filterMap]
  constructor
  · rintro ⟨⟨j, d'⟩, hmem, hd⟩
    by_cases hj : j = k
    · rw [if_pos hj] at hd
      obtain rfl := Option.some.inj hd
      exact hj ▸ hmem
    · rw [if_neg hj] at hd
      cases hd
  · intro hmem
    exact ⟨(k, d), hmem, if_pos rfl⟩

/-- The deeds of a run are those in both parts of what was done. -/
theorem deedsOf_append (k : Nat) (ds ds' : List (Nat × Deed)) :
    deedsOf k (ds ++ ds') = deedsOf k ds ++ deedsOf k ds' := List.filterMap_append

/-- The deeds of a run come to its earlier ones. -/
theorem deedsOf_append_same (k : Nat) (ds : List (Nat × Deed)) (ds' : List Deed) :
    deedsOf k (ds ++ ds'.map (k, ·)) = deedsOf k ds ++ ds' := by
  unfold deedsOf
  rw [List.filterMap_append, List.filterMap_map]
  congr 1
  have hsome : ((fun x : Nat × Deed => if x.1 = k then some x.2 else none) ∘ (k, ·)) = some :=
    funext fun _ => if_pos rfl
  rw [hsome, List.filterMap_some]

/-- The deeds of a run are no deeds of another one. -/
theorem deedsOf_append_other {j k : Nat} (hjk : j ≠ k) (ds : List (Nat × Deed))
    (ds' : List Deed) : deedsOf j (ds ++ ds'.map (k, ·)) = deedsOf j ds := by
  have hnone : deedsOf j (ds'.map (k, ·)) = [] := by
    refine List.filterMap_eq_nil_iff.mpr fun x hx => ?_
    obtain ⟨d, -, rfl⟩ := List.mem_map.mp hx
    exact if_neg (Ne.symm hjk)
  unfold deedsOf at hnone ⊢
  rw [List.filterMap_append, hnone, List.append_nil]

namespace History

variable {h : Host σ} {w₀ : World σ} {t : Traffic σ} {ds : List (Nat × Deed)}

/-- A property of the deeds of a run and the run holds for all runs, if it holds for a run that was
just started and if every move keeps it in worlds to which no observer has come. -/
theorem forall_runs {P : StartedRun → List Deed → Prop} (hist : History h ⟨w₀, []⟩ ds t)
    (hnew : ∀ workflow stepwise, P (.new workflow stepwise) [])
    (hmove : ∀ {w w' s r ds ds'}, w.listeners.Sublist w₀.listeners → P s ds →
      Move h (w, s.run) ds' (w', r) → P { s with run := r } (ds ++ ds')) :
    (∀ k, t.runs.length ≤ k → deedsOf k ds = []) ∧
      ∀ k s, t.runs[k]? = some s → P s (deedsOf k ds) := by
  generalize hstart : (⟨w₀, []⟩ : Traffic σ) = t₀ at hist
  induction hist with
  | nil =>
    subst hstart
    exact ⟨fun _ _ => rfl, nofun⟩
  | @started ds t workflow stepwise _ ih =>
    obtain ⟨hlater, hruns⟩ := ih
    constructor
    · intro k hk
      apply hlater
      rw [List.length_append] at hk
      omega
    · intro k s hs
      obtain hs | ⟨rfl, rfl⟩ := getElem?_append_one.mp hs
      · exact hruns k s hs
      · rw [hlater t.runs.length (Nat.le_refl _)]
        exact hnew workflow stepwise
  | @moved ds ds' t j s w r hist hs hmoved ih =>
    subst hstart
    obtain ⟨hlater, hruns⟩ := ih
    obtain ⟨hj, -⟩ := List.getElem?_eq_some_iff.mp hs
    constructor
    · intro k hk
      rw [List.length_set] at hk
      have hkj : k ≠ j := by omega
      rw [deedsOf_append_other hkj]
      exact hlater k hk
    · intro k s' hs'
      obtain ⟨rfl, rfl⟩ | ⟨hkj, hs'⟩ := (getElem?_set_one hj).mp hs'
      · rw [deedsOf_append_same]
        exact hmove (hist.follows nofun).listeners (hruns k s hs) hmoved
      · rw [deedsOf_append_other hkj]
        exact hruns k s' hs'

/-- Every run has taken its own actions, in order and each one once. -/
theorem takes (hist : History h ⟨w₀, []⟩ ds t) {k : Nat} {s : StartedRun}
    (hs : t.runs[k]? = some s) : (Run.ofWorkflow s.workflow).Takes (deedsOf k ds) s.run := by
  have hruns := hist.forall_runs (P := fun s own => (Run.ofWorkflow s.workflow).Takes own s.run)
    (fun workflow stepwise => Run.takes_nothing rfl nofun rfl rfl)
    (fun _ htakes hmove => htakes.append hmove.phase_ne hmove.takes)
  exact hruns.2 k s hs

end History

/-! ## What the surface shows -/

/-- As long as no deed takes lines and images away, they are put out one after the other. -/
theorem Deed.foldl_onto (part : Deed → List Text) (shown : List Text) {ds : List Deed}
    (hkept : ∀ d ∈ ds, d.clears = false) :
    ds.foldl (Deed.onto part) shown = shown ++ ds.flatMap part := by
  induction ds generalizing shown with
  | nil => exact (List.append_nil _).symm
  | cons d rest ih =>
    have hd : Deed.onto part shown d = shown ++ part d := by
      unfold Deed.onto
      rw [hkept d (by simp)]
      rfl
    rw [List.foldl_cons, hd, ih _ fun d' hd' => hkept d' (by simp [hd']), List.flatMap_cons,
      List.append_assoc]

/-- Behind a deed that takes lines and images away only later ones are shown. -/
theorem Deed.foldl_onto_clears (part : Deed → List Text) (shown : List Text)
    {before after : List Deed} {d : Deed} (hclears : d.clears = true)
    (hkept : ∀ d ∈ after, d.clears = false) :
    (before ++ d :: after).foldl (Deed.onto part) shown = after.flatMap part := by
  have hd (shown : List Text) : Deed.onto part shown d = [] := if_pos hclears
  rw [List.foldl_append, List.foldl_cons, hd, Deed.foldl_onto part [] hkept, List.nil_append]

namespace History

variable {h : Host σ} {w₀ : World σ} {t : Traffic σ}

/-- The actions that a run has applied are the first ones of its workflow: those in front of its
position as long as it has not ended, and all of them if it has finished. -/
theorem appliedBy_prefix {ds : List (Nat × Deed)} (hist : History h ⟨w₀, []⟩ ds t) {k : Nat}
    {s : StartedRun} (hs : t.runs[k]? = some s) : appliedBy k ds <+: s.actions.zipIdx ∧
      (s.run.phase ≠ .ended → appliedBy k ds = (s.actions.take s.run.index).zipIdx ∧
        s.run.remaining = s.actions.drop s.run.index) ∧
      ((k, .left .finished) ∈ ds → appliedBy k ds = s.actions.zipIdx) := by
  obtain ⟨taken, left, hrem, happlied, hall, hgoes⟩ := hist.takes hs
  rw [Run.remaining_ofWorkflow] at hrem
  rw [Run.index_ofWorkflow] at happlied hgoes
  unfold appliedBy StartedRun.actions
  rw [hrem, happlied]
  refine ⟨?_, fun hph => ?_, fun hfinished => ?_⟩
  · rw [List.zipIdx_append]
    exact List.prefix_append _ _
  · obtain ⟨hremaining, hindex, -⟩ := hgoes hph
    rw [hremaining, hindex, Nat.zero_add]
    simp
  · rw [hall (mem_deedsOf.mpr hfinished), List.append_nil]

/-- A run that had not ended and is done when it goes on has applied all its actions, unless it has
ended because of a reload. -/
theorem appliedBy_of_done {ds : List (Nat × Deed)} (hist : History h ⟨w₀, []⟩ ds t) {k : Nat}
    {s : StartedRun} (hs : t.runs[k]? = some s) (hph : s.run.phase ≠ .ended)
    (hdone : ((s.run.advance h s.pauses).run t.world).1.2 = .done) :
    ∃ ds', History h ⟨w₀, []⟩ (ds ++ ds') (t.take h (.resume k)) ∧
      ((k, .left .reloaded) ∈ ds' ∨ appliedBy k (ds ++ ds') = s.actions.zipIdx) := by
  obtain ⟨ds', hmoves, hends⟩ := Run.exists_moves_advance h s.pauses s.run t.world
  have hist' := hist.movedAll hs hmoves rfl
  have htake : t.take h (.resume k) =
      ⟨((s.run.advance h s.pauses).run t.world).2,
        t.runs.set k { s with run := ((s.run.advance h s.pauses).run t.world).1.1 }⟩ := by
    unfold Traffic.take Traffic.drive
    dsimp only
    rw [hs]
    rfl
  rw [htake]
  refine ⟨ds'.map (k, ·), hist', ?_⟩
  obtain hfinished | hreloaded | ⟨rfl, hrem⟩ := hends hdone hph
  · have hset := List.getElem?_set_self (List.getElem?_eq_some_iff.mp hs).1
      (a := { s with run := ((s.run.advance h s.pauses).run t.world).1.1 })
    obtain ⟨-, -, hall⟩ := hist'.appliedBy_prefix hset
    exact .inr (hall (List.mem_append_right ds (List.mem_map_of_mem hfinished)))
  · exact .inl (List.mem_map_of_mem hreloaded)
  · obtain ⟨-, hpresent, -⟩ := hist.appliedBy_prefix hs
    obtain ⟨happlied, hremaining⟩ := hpresent hph
    have hlength : s.actions.length ≤ s.run.index := by
      rwa [hremaining, List.drop_eq_nil_iff] at hrem
    refine .inr ?_
    rw [List.map_nil, List.append_nil, happlied, List.take_of_length_le hlength]

/-- Behind a deed that took lines and images away, the surface shows those of the later deeds. -/
theorem shows_since {before after : List (Nat × Deed)} {x : Nat × Deed}
    (hist : History h ⟨w₀, []⟩ (before ++ x :: after) t) (hclears : x.2.clears = true)
    (hkept : ∀ y ∈ after, y.2.clears = false) :
    t.world.surface.output = after.flatMap (·.2.lines) ∧
      t.world.surface.images = after.flatMap (·.2.images) := by
  have hfollows := hist.follows nofun
  have hkept' : ∀ d ∈ after.map (·.2), d.clears = false := List.forall_mem_map.mpr hkept
  rw [hfollows.output, hfollows.images, List.map_append, List.map_cons,
    Deed.foldl_onto_clears _ _ hclears hkept', Deed.foldl_onto_clears _ _ hclears hkept',
    List.flatMap_map, List.flatMap_map]
  exact ⟨rfl, rfl⟩

/-- As long as no deed took lines and images away, the surface shows those of all deeds behind those
that were there. -/
theorem shows {ds : List (Nat × Deed)} (hist : History h ⟨w₀, []⟩ ds t)
    (hkept : ∀ y ∈ ds, y.2.clears = false) :
    t.world.surface.output = w₀.surface.output ++ ds.flatMap (·.2.lines) ∧
      t.world.surface.images = w₀.surface.images ++ ds.flatMap (·.2.images) := by
  have hfollows := hist.follows nofun
  have hkept' : ∀ d ∈ ds.map (·.2), d.clears = false := List.forall_mem_map.mpr hkept
  rw [hfollows.output, hfollows.images, Deed.foldl_onto _ _ hkept', Deed.foldl_onto _ _ hkept',
    List.flatMap_map, List.flatMap_map]
  exact ⟨rfl, rfl⟩

end History

/-- **Overlapping runs lose nothing and repeat nothing.** Whatever is done with any number of runs
has a history. At every moment of a history each run has applied actions of its own, in order and
from the first one on: exactly those in front of its position as long as it has not ended, and all
of them if it has finished. A run that says it is done when it goes on has applied all of them,
unless it ends because of a reload. The surface shows the lines and images that the deeds have put
out since the last one that took them away, and since the start if there is none. -/
theorem Traffic.keeps_order_and_output (h : Host σ) (w₀ : World σ) :
    (∀ turns, ∃ ds, History h ⟨w₀, []⟩ ds (Traffic.takeAll h ⟨w₀, []⟩ turns)) ∧
    ∀ ds t, History h ⟨w₀, []⟩ ds t →
      (∀ k s, t.runs[k]? = some s → appliedBy k ds <+: s.actions.zipIdx ∧
        (s.run.phase ≠ .ended → appliedBy k ds = (s.actions.take s.run.index).zipIdx ∧
          s.run.remaining = s.actions.drop s.run.index) ∧
        ((k, .left .finished) ∈ ds → appliedBy k ds = s.actions.zipIdx) ∧
        (s.run.phase ≠ .ended → ((s.run.advance h s.pauses).run t.world).1.2 = .done →
          ∃ ds', History h ⟨w₀, []⟩ (ds ++ ds') (t.take h (.resume k)) ∧
            ((k, .left .reloaded) ∈ ds' ∨ appliedBy k (ds ++ ds') = s.actions.zipIdx))) ∧
      (∀ before x after, ds = before ++ x :: after → x.2.clears = true →
        (∀ y ∈ after, y.2.clears = false) →
        t.world.surface.output = after.flatMap (·.2.lines) ∧
        t.world.surface.images = after.flatMap (·.2.images)) ∧
      ((∀ y ∈ ds, y.2.clears = false) →
        t.world.surface.output = w₀.surface.output ++ ds.flatMap (·.2.lines) ∧
        t.world.surface.images = w₀.surface.images ++ ds.flatMap (·.2.images)) := by
  refine ⟨History.exists_takeAll h nofun, fun ds t hist => ⟨?_, ?_, hist.shows⟩⟩
  · intro k s hs
    obtain ⟨happlied, hpresent, hfinished⟩ := hist.appliedBy_prefix hs
    exact ⟨happlied, hpresent, hfinished, hist.appliedBy_of_done hs⟩
  · rintro before x after rfl
    exact hist.shows_since

/-- While a question waits, another run takes away the line that was put out before it. -/
theorem Traffic.keeps_order_around_question :
    let asks : Workflow :=
      ⟨"Go", [⟨"a1", .showText, some [("text", "Hi")]⟩, ⟨"a2", .promptAndShow, none⟩]⟩
    let shows : Workflow := ⟨"Go", [⟨"a1", .showText, some [("text", "Well")]⟩]⟩
    let w : World HostScript := {
      surface := .fresh, shelf := ⟨.memory [], ⟨[], [], []⟩⟩, sequencer := .paced 0
      host := { answers := [some "Eve"], suspended := ["prompt"] } }
    let t := Traffic.takeAll HostScript.host ⟨w, []⟩ [.start (some asks) false,
      .start (some shows) false, .resume 0, .resume 1, .resume 0]
    ∃ ds, History HostScript.host ⟨w, []⟩ ds t ∧ appliedBy 0 ds <+: asks.actions.zipIdx ∧
      t.world.surface.output = [("Well" : Text), "You entered: Eve"] := by
  intro asks shows w t
  obtain ⟨hall, hkept⟩ := Traffic.keeps_order_and_output HostScript.host w
  obtain ⟨ds, hist⟩ := hall [.start (some asks) false, .start (some shows) false, .resume 0,
    .resume 1, .resume 0]
  have hfirst : t.runs[0]?.map StartedRun.actions = some asks.actions := by decide
  obtain ⟨s, hs, hactions⟩ := Option.map_eq_some_iff.mp hfirst
  obtain ⟨happlied, -⟩ := (hkept ds t hist).1 0 s hs
  exact ⟨ds, hist, hactions ▸ happlied, by decide⟩

end PushButton
