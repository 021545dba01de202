import Mathlib.Data.List.Pairwise
import PushButton.Proofs.Run.Observers

/-!
# Subscriptions

An observer that subscribes is given a call of its own that ends this subscription, and it may
subscribe several times. The call ends the oldest subscription of the observer, so that it ends its
own one only if this makes no difference: it does nothing when nothing is left of the observer, and
the order is kept where no other observer stands in between. Then those are told about a change
whose calls were not made, in the order of their subscriptions.
-/

namespace PushButton

variable {σ : Type}

/-! ## Histories of subscriptions -/

/-- The subscriptions of some observers and the calls that end them, in the order in which they were
made. A call belongs to a subscription that was made before, and may be made several times. -/
inductive Subscribing : List Listener → Type
  /-- Nobody has subscribed. -/
  | nil : Subscribing []
  /-- An observer subscribes. -/
  | subscribe {made : List Listener} (h : Subscribing made) (l : Listener) :
    Subscribing (made ++ [l])
  /-- The call of a subscription is made. -/
  | leave {made : List Listener} (h : Subscribing made) (k : Fin made.length) : Subscribing made

namespace Subscribing

/-- The world after subscriptions and calls that end them. -/
def world (w : World σ) : {made : List Listener} → Subscribing made → World σ
  | _, .nil => w
  | _, .subscribe h l => ((Act.subscribe l).exec (h.world w)).2
  | made, .leave h k => ((Act.unsubscribe made[k].name).exec (h.world w)).2

/-- The call of a subscription was made. -/
def hasLeft : {made : List Listener} → Subscribing made → Nat → Bool
  | _, .nil, _ => false
  | _, .subscribe h _, j => h.hasLeft j
  | _, .leave h k, j => decide (j = k) || h.hasLeft j

variable {made : List Listener}

/-- The subscriptions whose calls were not made, with their numbers. -/
def live (h : Subscribing made) : List (Listener × Nat) :=
  made.zipIdx.filter fun x => !h.hasLeft x.2

/-- The observers whose calls were not made, once for each subscription. -/
def observers (h : Subscribing made) : List Listener := h.live.map Prod.fst

/-- The call of a subscription is made where the oldest subscription of the observer may be taken
instead of that: if the call was made before, then nothing is left of the observer; and otherwise
no other observer stands between that subscription and an older one of the observer. -/
structure Fits (h : Subscribing made) (k : Fin made.length) : Prop where
  /-- Nothing is left of the observer, if the call was made before. -/
  nothing : h.hasLeft k = true → ∀ l ∈ h.observers, l.name ≠ made[k].name
  /-- No other observer stands in between, if it was not. -/
  between : h.hasLeft k = false → (h.live.filter fun x => x.2 < (k : Nat)).Pairwise fun x y =>
    x.1.name = made[k].name → y.1.name = made[k].name

/-- Every call is made where it fits. -/
def IsOrderly : {made : List Listener} → Subscribing made → Prop
  | _, .nil => True
  | _, .subscribe h _ => h.IsOrderly
  | _, .leave h k => h.IsOrderly ∧ h.Fits k

instance (h : Subscribing made) (k : Fin made.length) : Decidable (h.Fits k) :=
  decidable_of_iff
    ((h.hasLeft k = true → ∀ l ∈ h.observers, l.name ≠ made[k].name) ∧
      (h.hasLeft k = false → (h.live.filter fun x => x.2 < (k : Nat)).Pairwise fun x y =>
        x.1.name = made[k].name → y.1.name = made[k].name))
    ⟨fun h => ⟨h.1, h.2⟩, fun h => ⟨h.nothing, h.between⟩⟩

instance decidableIsOrderly : {made : List Listener} → (h : Subscribing made) →
    Decidable h.IsOrderly
  | _, .nil => .isTrue trivial
  | _, .subscribe h _ => decidableIsOrderly h
  | _, .leave h _ =>
    have := decidableIsOrderly h
    inferInstanceAs (Decidable (_ ∧ _))

/-! ## What is live -/

/-- A call was made only of a subscription that was made. -/
theorem lt_of_hasLeft (h : Subscribing made) {j : Nat} (hj : h.hasLeft j = true) :
    j < made.length := by
  induction h with
  | nil => cases hj
  | subscribe h l ih =>
    have hlt := ih hj
    rw [List.length_append]
    omega
  | leave h k ih =>
    obtain rfl | hj := (Bool.or_eq_true _ _ ▸ hj : _ ∨ _).imp_left of_decide_eq_true
    · exact k.isLt
    · exact ih hj

/-- A new subscription is live. -/
theorem live_subscribe (h : Subscribing made) (l : Listener) :
    (h.subscribe l).live = h.live ++ [(l, made.length)] := by
  have hnew : h.hasLeft made.length = false := by
    cases hj : h.hasLeft made.length with
    | false => rfl
    | true => exact absurd (h.lt_of_hasLeft hj) (Nat.lt_irrefl _)
  have hone : ([l].zipIdx (0 + made.length)).filter (fun x => !h.hasLeft x.2) =
      [(l, made.length)] := by
    rw [Nat.zero_add]
    exact List.filter_cons_of_pos (by simp [hnew])
  unfold live
  rw [List.zipIdx_append, List.filter_append]
  exact congrArg _ hone

/-- A subscription is not live after its call. -/
theorem live_leave (h : Subscribing made) (k : Fin made.length) :
    (h.leave k).live = h.live.filter fun x => x.2 ≠ (k : Nat) := by
  unfold live
  rw [List.filter_filter]
  refine List.filter_congr fun x _ => ?_
  change (!(decide (x.2 = k) || h.hasLeft x.2)) = (decide (x.2 ≠ k) && !h.hasLeft x.2)
  rw [Bool.not_or, decide_not]

/-- A subscription is live if its call was not made. -/
theorem mem_live_iff (h : Subscribing made) {x : Listener × Nat} :
    x ∈ h.live ↔ made[x.2]? = some x.1 ∧ h.hasLeft x.2 = false := by
  unfold live
  rw [List.mem_filter, List.mem_zipIdx_iff_getElem?]
  simp

/-- Live subscriptions stand in the order in which they were made. -/
theorem pairwise_live (h : Subscribing made) : h.live.Pairwise fun x y => x.2 < y.2 := by
  have hnumbers : (made.zipIdx.map Prod.snd).Pairwise (· < ·) := by
    rw [List.zipIdx_map_snd]
    exact List.pairwise_lt_range'
  exact (List.pairwise_map.mp hnumbers).filter _

/-- A live subscription divides those before it from those after it. -/
theorem exists_live_eq (h : Subscribing made) {k : Fin made.length} (hk : h.hasLeft k = false) :
    ∃ after, h.live = (h.live.filter fun x => x.2 < (k : Nat)) ++ (made[k], (k : Nat)) :: after ∧
      (h.live.filter fun x => x.2 ≠ (k : Nat)) =
        (h.live.filter fun x => x.2 < (k : Nat)) ++ after := by
  have hmem : (made[k], (k : Nat)) ∈ h.live := h.mem_live_iff.mpr ⟨by simp, hk⟩
  obtain ⟨before, after, hlive⟩ := List.append_of_mem hmem
  have hpairwise := hlive ▸ h.pairwise_live
  obtain ⟨-, hlater, hearlier⟩ := List.pairwise_append.mp hpairwise
  have hbefore (x) (hx : x ∈ before) : x.2 < (k : Nat) := hearlier x hx _ List.mem_cons_self
  have hafter (x) (hx : x ∈ after) : (k : Nat) < x.2 := (List.pairwise_cons.mp hlater).1 x hx
  have holder : (h.live.filter fun x => x.2 < (k : Nat)) = before := by
    rw [hlive, List.filter_append, List.filter_cons_of_neg (by simp),
      List.filter_eq_self.mpr (by simpa using hbefore),
      List.filter_eq_nil_iff.mpr fun x hx => by simpa using Nat.le_of_lt (hafter x hx),
      List.append_nil]
  have hothers : (h.live.filter fun x => x.2 ≠ (k : Nat)) = before ++ after := by
    rw [hlive, List.filter_append, List.filter_cons_of_neg (by simp),
      List.filter_eq_self.mpr fun x hx => by simpa using Nat.ne_of_lt (hbefore x hx),
      List.filter_eq_self.mpr fun x hx => by simpa using Nat.ne_of_gt (hafter x hx)]
  exact ⟨after, by rw [holder]; exact hlive, by rw [holder, hothers]⟩

end Subscribing

/-! ## Who observes -/

/-- A name stands for one observer. -/
def Listener.IsNamed (ls : List Listener) : Prop := ∀ l ∈ ls, ∀ l' ∈ ls, l.name = l'.name → l = l'

/-- The oldest subscription of an observer may be taken for one behind it, if no other observer
stands in between. -/
theorem Listener.eraseP_append_cons {before : List Listener} {l : Listener}
    (hnamed : ∀ l' ∈ before, l'.name = l.name → l' = l)
    (hbetween : before.Pairwise fun x y => x.name = l.name → y.name = l.name)
    (after : List Listener) :
    ((before ++ l :: after).eraseP fun l' => l'.name = l.name) = before ++ after := by
  induction before with
  | nil => exact List.eraseP_cons_of_pos (by simp)
  | cons l' before ih =>
    obtain ⟨hfirst, hrest⟩ := List.pairwise_cons.mp hbetween
    by_cases hl' : l'.name = l.name
    · obtain rfl : l' = l := hnamed l' List.mem_cons_self hl'
      have hsame : before = List.replicate before.length l' :=
        List.eq_replicate_iff.mpr ⟨rfl, fun x hx =>
          hnamed x (List.mem_cons_of_mem _ hx) (hfirst x hx rfl)⟩
      rw [List.cons_append, List.eraseP_cons_of_pos (by simp), hsame, List.append_cons,
        ← List.replicate_succ', List.replicate_succ]
    · rw [List.cons_append, List.eraseP_cons_of_neg (by simpa using hl'),
        ih (fun x hx => hnamed x (List.mem_cons_of_mem _ hx)) hrest, List.cons_append]

namespace Subscribing

variable {made : List Listener} {w : World σ}

/-- Those observe a surface whose calls were not made. -/
theorem listeners_world (hnamed : Listener.IsNamed made) (hw : w.listeners = [])
    (h : Subscribing made) (horderly : h.IsOrderly) : (h.world w).listeners = h.observers := by
  induction h with
  | nil => exact hw
  | subscribe h l ih =>
    have hbefore := ih (fun x hx y hy => hnamed x (by simp [hx]) y (by simp [hy])) horderly
    unfold observers
    rw [live_subscribe, List.map_append]
    exact congrArg (· ++ [l]) hbefore
  | @leave made h k ih =>
    obtain ⟨horderly, hfits⟩ := horderly
    have hbefore := ih hnamed horderly
    have hexec : ((h.leave k).world w).listeners =
        (h.world w).listeners.eraseP fun l => l.name = made[k].name := rfl
    rw [hexec, hbefore]
    unfold observers
    rw [live_leave]
    cases hk : h.hasLeft k with
    | true =>
      have hnone : ∀ l ∈ h.observers, ¬ decide (l.name = made[k].name) = true :=
        fun l hl => by simpa using hfits.nothing hk l hl
      have hothers : (h.live.filter fun x => x.2 ≠ (k : Nat)) = h.live := by
        refine List.filter_eq_self.mpr fun x hx => ?_
        have hleft := (h.mem_live_iff.mp hx).2
        refine decide_eq_true fun hx => ?_
        rw [hx, hk] at hleft
        cases hleft
      rw [hothers]
      exact List.eraseP_of_forall_not hnone
    | false =>
      have hbetween := hfits.between hk
      obtain ⟨after, hlive, hothers⟩ := h.exists_live_eq hk
      have hmade : ∀ x ∈ h.live.filter fun x => x.2 < (k : Nat), x.1 ∈ made := fun x hx =>
        List.mem_of_getElem? (h.mem_live_iff.mp (List.mem_filter.mp hx).1).1
      generalize (h.live.filter fun x => x.2 < (k : Nat)) = older at hbetween hlive hothers hmade
      rw [hothers, hlive, List.map_append, List.map_cons, List.map_append]
      refine Listener.eraseP_append_cons (fun l hl => ?_) (List.pairwise_map.mpr hbetween) _
      obtain ⟨x, hx, rfl⟩ := List.mem_map.mp hl
      exact hnamed x.1 (hmade x hx) made[k] (List.getElem_mem _)

end Subscribing

/-! ## Who is told -/

/-- The observer that is told, with the part that it is told about. -/
def Occurrence.told? : Occurrence → Option (Text × Field)
  | .notified l field _ _ => some (l, field)
  | .logged _ | .slept _ | .asked _ | .called _ | .printed _ => none

/-- Telling an observer is told to it alone. -/
theorem Listener.filterMap_told?_notice (l : Listener) (field : Field) (s : SurfaceState)
    (past : List Occurrence) : (l.notice field s past).filterMap Occurrence.told? =
      [(l.name, field)] := by
  have hprints : ((l.react field s past).prints.map .printed).filterMap Occurrence.told? = [] := by
    refine List.filterMap_eq_nil_iff.mpr fun o ho => ?_
    obtain ⟨t, -, rfl⟩ := List.mem_map.mp ho
    rfl
  have hfirst : (Occurrence.notified l.name field s.output.length s.images.length).told? =
      some (l.name, field) := rfl
  unfold notice
  rw [List.filterMap_cons_some hfirst, hprints]

/-- A row of observers is told about a part: each of them once and in their order, up to the first
that fails. -/
structure Act.TellsRow (field : Field) (ls : List Listener) (w : World σ)
    (out : Except Failure PUnit × World σ) (os : List Occurrence) : Prop where
  /-- What has happened. -/
  past : out.2.past = os.reverse ++ w.past
  /-- None of them is told twice or out of turn. -/
  inOrder : os.filterMap Occurrence.told? <+: ls.map fun l => (l.name, field)
  /-- All of them are told, unless one fails. -/
  all : out.1 = .ok ⟨⟩ → os.filterMap Occurrence.told? = ls.map fun l => (l.name, field)

/-- A row of observers is told. -/
theorem Act.exists_tellsRow (field : Field) (ls : List Listener) (w : World σ) :
    ∃ os, TellsRow field ls w ((ls.forM (tell field)).exec w) os := by
  induction ls generalizing w with
  | nil => exact ⟨[], rfl, List.nil_prefix, fun _ => rfl⟩
  | cons l ls ih =>
    have hfirst := l.filterMap_told?_notice field w.surface w.past
    change ∃ os, TellsRow field (l :: ls) w
      ((tell field l >>= fun _ => ls.forM (tell field)).exec w) os
    rw [exec_bind, exec_tell]
    cases (l.react field w.surface w.past).failure with
    | some f =>
      refine ⟨_, rfl, ?_, nofun⟩
      rw [hfirst]
      exact ⟨ls.map fun l => (l.name, field), rfl⟩
    | none =>
      obtain ⟨os, hpast, hinOrder, hall⟩ := ih { w.after (l.notice field w.surface w.past) with
        listeners := without (l.react field w.surface w.past).unsubscribes w.listeners }
      have htold : (l.notice field w.surface w.past ++ os).filterMap Occurrence.told? =
          (l.name, field) :: os.filterMap Occurrence.told? := by
        rw [List.filterMap_append, hfirst]
        rfl
      refine ⟨l.notice field w.surface w.past ++ os, ?_, ?_, fun hok => ?_⟩
      · rw [List.reverse_append, List.append_assoc]
        exact hpast
      · rw [htold, List.map_cons]
        exact (List.prefix_cons_inj _).mpr hinOrder
      · rw [htold, List.map_cons, hall hok]

/-- All observers are told about a part of a surface that is changed. -/
theorem Act.exists_tellsRow_change (field : Field) (f : SurfaceState → SurfaceState)
    (w : World σ) : ∃ os, TellsRow field w.listeners w ((change field f).exec w) os := by
  obtain ⟨os, hpast, hinOrder, hall⟩ :=
    exists_tellsRow field w.listeners { w with surface := f w.surface }
  exact ⟨os, hpast, hinOrder, hall⟩

namespace Subscribing

variable {made : List Listener} {w : World σ}

/-- Subscriptions change nothing but who observes the surface. -/
theorem world_eq (h : Subscribing made) (w : World σ) :
    h.world w = { w with listeners := (h.world w).listeners } := by
  induction h with
  | nil => rfl
  | subscribe h l ih =>
    change ({ h.world w with listeners := (h.world w).listeners ++ [l] } : World σ) = _
    rw [ih]
    rfl
  | @leave made h k ih =>
    change ({ h.world w with
      listeners := (h.world w).listeners.eraseP fun l => l.name = made[k].name } : World σ) = _
    rw [ih]
    rfl

/-- **Those are told whose calls were not made.** Observers subscribe to a new surface, each any
number of times, and the calls that end their subscriptions are made, each any number of times and
in any order, but where they fit. Nothing changes but who observes the surface. When the surface is
then changed in a part, the observers are told about it whose calls were not made, once for each
such subscription and in the order of the subscriptions, up to the first that fails; if no observer
ever fails, all of them are told. A call that is made again has no effect. -/
theorem tells_live (hnamed : Listener.IsNamed made) (hw : w.listeners = [])
    (h : Subscribing made) (horderly : h.IsOrderly) :
    h.world w = { w with listeners := h.observers } ∧
    (∀ field f, ∃ os, Act.TellsRow field h.observers (h.world w)
      ((Act.change field f).exec (h.world w)) os) ∧
    ((∀ l ∈ made, l.NeverFails) →
      ∀ field f, ((Act.change field f).exec (h.world w)).1 = .ok ⟨⟩) ∧
    ∀ k : Fin made.length, h.hasLeft k = true → h.Fits k → (h.leave k).world w = h.world w := by
  have hlisteners := listeners_world hnamed hw h horderly
  refine ⟨?_, fun field f => ?_, fun hcalm field f => ?_, fun k hk hfits => ?_⟩
  · rw [← hlisteners]
    exact h.world_eq w
  · rw [← hlisteners]
    exact Act.exists_tellsRow_change field f (h.world w)
  · have hcalm' : World.IsCalm { h.world w with surface := f (h.world w).surface } := by
      intro l hl
      have hl : l ∈ h.observers := hlisteners ▸ hl
      obtain ⟨x, hx, rfl⟩ := List.mem_map.mp hl
      exact hcalm x.1 (List.mem_of_getElem? (h.mem_live_iff.mp hx).1)
    obtain ⟨w', hexec⟩ := Act.exists_exec_notify field hcalm'
    exact congrArg Prod.fst hexec
  · have hnone : ∀ l ∈ (h.world w).listeners, ¬ decide (l.name = made[k].name) = true := by
      intro l hl
      rw [hlisteners] at hl
      simpa using hfits.nothing hk l hl
    change ({ h.world w with
      listeners := (h.world w).listeners.eraseP fun l => l.name = made[k].name } : World σ) = _
    rw [List.eraseP_of_forall_not hnone]

/-- The observer that is told about every part and does nothing, by a name. -/
def idle (name : Text) : Listener := ⟨name, fun _ _ _ => {}⟩

/-- A name stands for one idle observer. -/
theorem isNamed_idle (names : List Text) : Listener.IsNamed (names.map idle) := by
  intro l hl l' hl' hname
  obtain ⟨name, -, rfl⟩ := List.mem_map.mp hl
  obtain ⟨name', -, rfl⟩ := List.mem_map.mp hl'
  exact congrArg idle hname

/-- Three subscriptions of two observers: the second is ended twice, and then the first. -/
theorem tells_live_twice_left :
    let a := idle "a"
    let b := idle "b"
    let w : World Unit := {
      surface := .fresh, sequencer := .paced 0, shelf := ⟨.memory [], ⟨[], [], []⟩⟩, host := () }
    let all := ((Subscribing.nil.subscribe a).subscribe b).subscribe a
    let h := ((all.leave ⟨1, by decide⟩).leave ⟨1, by decide⟩).leave ⟨0, by decide⟩
    Listener.IsNamed [a, b, a] ∧ w.listeners = [] ∧ h.IsOrderly ∧
      h.world w = { w with listeners := [a] } := by
  intro a b w all h
  have hnamed : Listener.IsNamed [a, b, a] := isNamed_idle ["a", "b", "a"]
  have hw : w.listeners = [] := rfl
  have horderly : h.IsOrderly := by decide +kernel
  obtain ⟨hworld, -⟩ := tells_live hnamed hw h horderly
  exact ⟨hnamed, hw, horderly, hworld⟩

/-- An observer subscribes twice, and the call of its second subscription is made twice: it is told
about nothing then, although the call of its first subscription was not made. -/
theorem not_every_live_observer_told :
    ¬ ∀ (made : List Listener) (h : Subscribing made) (w : World Unit) (field : Field)
      (f : SurfaceState → SurfaceState), Listener.IsNamed made → w.listeners = [] →
        ∃ os, Act.TellsRow field h.observers (h.world w)
          ((Act.change field f).exec (h.world w)) os := by
  intro hall
  let all := (Subscribing.nil.subscribe (idle "a")).subscribe (idle "a")
  have hnamed : Listener.IsNamed [idle "a", idle "a"] := isNamed_idle ["a", "a"]
  obtain ⟨os, hpast, -, htold⟩ := hall _ ((all.leave ⟨1, by decide⟩).leave ⟨1, by decide⟩)
    { surface := .fresh, sequencer := .paced 0, shelf := ⟨.memory [], ⟨[], [], []⟩⟩, host := () }
    .output id hnamed rfl
  have hpast : [] = os.reverse ++ [] := hpast
  have hnothing : os = [] := by simpa using hpast
  have hall := htold rfl
  rw [hnothing] at hall
  cases hall

end Subscribing

end PushButton
