import PushButton.Proofs.Run.Replay
import PushButton.Proofs.Run.Times
import PushButton.Run.Traffic

/-!
# Runs that are left and go on

Wherever a run is left, in front of an action, while the host is asked or behind an action, going on
from there leads to the end that the run would have reached if it had never been left. For each
action a run is left once at most in each of these ways, so it is over after so many times.
-/

namespace PushButton

/-- The run was left before its end. -/
def Progress.isPause : Progress → Bool
  | .sleeping _ | .asking _ | .stepped _ _ _ => true
  | .done | .failed _ => false

/-- How the end of a complete run is reported. -/
def Progress.ofResult : Except Failure Unit → Progress
  | .ok _ => .done
  | .error f => .failed f

/-- How many times a run may be left for one action. -/
def Pauses.perAction (p : Pauses) : Nat := p.sleeps.toNat + p.requests.toNat + p.steps.toNat

namespace Run

variable {σ : Type} {h : Host σ} {p : Pauses}

/-- What a run reports when it goes on again and again, so many times at most, until it is over. -/
def untilOver (h : Host σ) (p : Pauses) : Nat → Run → World σ → List (Progress × World σ)
  | 0, _, _ => []
  | n + 1, r, w =>
    let ((r', progress), w') := (r.advance h p).run w
    (progress, w') :: if progress.isPause then untilOver h p n r' w' else []

/-- How many times a run may still be left. -/
def pausesLeft (p : Pauses) (r : Run) : Nat :=
  match r.phase with
  | .fresh | .between => p.perAction * r.remaining.length
  | .pacing => p.perAction * r.remaining.length - p.sleeps.toNat
  | .asking _ _ => p.perAction * r.remaining.length - p.sleeps.toNat - p.requests.toNat
  | .reloaded | .ended => 0

/-- What a run reports where it has come to, and the world there. -/
def report (out : (Run × Progress) × World σ) : Progress × World σ := (out.1.2, out.2)

/-- What a run reports when it goes on and is not left any more. -/
def endOf (h : Host σ) (r : Run) (w : World σ) : Progress × World σ :=
  report ((advance h {} r).run w)

/-- A run comes to an end or is left; where it is left it may be left less than so many times more,
and it goes on to that end. -/
inductive Heads (h : Host σ) (p : Pauses) (bound : Nat) (e : Progress × World σ) :
    (Run × Progress) × World σ → Prop
  /-- The run comes to its end. -/
  | ends {r : Run} {progress : Progress} {w : World σ} : progress.isPause = false →
      e = (progress, w) → Heads h p bound e ((r, progress), w)
  /-- The run is left. -/
  | paused {r : Run} {progress : Progress} {w : World σ} : progress.isPause = true →
      pausesLeft p r < bound → endOf h r w = e → Heads h p bound e ((r, progress), w)

/-- A run that may be left fewer times may be left more often. -/
theorem Heads.mono {bound bound' : Nat} {e : Progress × World σ} {out : (Run × Progress) × World σ}
    (hle : bound ≤ bound') (hheads : Heads h p bound e out) : Heads h p bound' e out := by
  cases hheads with
  | ends hpause he => exact .ends hpause he
  | paused hpause hleft he => exact .paused hpause (Nat.lt_of_lt_of_le hleft hle) he

/-! ## The phase of a run between two actions -/

/-- How a run goes on between two actions does not depend on its phase. -/
theorem steps_with_phase (h : Host σ) (p : Pauses) (ph : Phase) (actions : List Action) (r : Run) :
    steps h p { r with phase := ph } actions = steps h p r actions := by
  induction actions generalizing r with
  | nil => rfl
  | cons a rest ih =>
    have hnext : steps h p ({ r with phase := ph } : Run).next rest = steps h p r.next rest :=
      ih r.next
    rw [steps, steps, hnext]
    rfl

end Run

namespace Action

variable {σ : Type}

/-! ## An action that waits for the host -/

/-- What comes of an action that was begun when its request is settled at once where it waits. -/
def settled (h : Host σ) (a : Action) :
    Except Failure Begun × World σ → Except Failure Begun × World σ
  | (.ok (.waiting q since), w) =>
    (((a.settle h q since).exec w).1.map .applied, ((a.settle h q since).exec w).2)
  | out => out

/-- An action that is begun and may not wait is begun like one that may, and its request is settled
where that one waits. -/
theorem exec_start_false (h : Host σ) (mayWait : Bool) (a : Action) (w : World σ) :
    (a.start h false).exec w = settled h a ((a.start h mayWait).exec w) := by
  cases mayWait with
  | false =>
    cases hstart : (a.start h false).exec w with
    | mk res w' =>
      cases res with
      | error f => rfl
      | ok b =>
        cases b with
        | applied e => rfl
        | waiting q since => cases (waiting_of_start hstart).1
  | true =>
    unfold start
    simp only [Act.exec_bind, Act.exec_log, Act.exec_get]
    cases a.request? with
    | none =>
      simp only [Act.exec_bind]
      generalize (a.timed _ _).exec _ = out
      obtain ⟨res, w'⟩ := out
      cases res with
      | error f => rfl
      | ok u => rfl
    | some q =>
      simp only [Act.exec_bind, Act.exec_ask]
      cases (h.ask q _).1 with
      | none =>
        simp only [Bool.false_eq_true, if_false, if_true, Act.exec_bind, Act.exec_pure, settled]
        generalize (a.settle h q _).exec _ = out
        obtain ⟨res, w'⟩ := out
        cases res with
        | error f => rfl
        | ok e => rfl
      | some reply =>
        dsimp only
        simp only [Act.exec_bind]
        generalize (a.timed _ _).exec _ = out
        obtain ⟨res, w'⟩ := out
        cases res with
        | error f => rfl
        | ok e => rfl

end Action

namespace Run

variable {σ : Type} {h : Host σ} {p : Pauses}

/-- Taking up an action without waiting is taking it up, and its request is settled where it waits.
-/
theorem exec_attempt_false (h : Host σ) (mayWait : Bool) (r : Run) (a : Action) (w : World σ) :
    (attempt h false { r with phase := .pacing } a).exec w =
      a.settled h ((attempt h mayWait { r with phase := .pacing } a).exec w) := by
  change (do announce r a; a.start h false : Act σ Begun).exec w =
    a.settled h ((do announce r a; a.start h mayWait : Act σ Begun).exec w)
  rw [Act.exec_bind, Act.exec_bind]
  generalize (announce r a).exec w = out
  obtain ⟨res, w'⟩ := out
  cases res with
  | error f => rfl
  | ok u => exact a.exec_start_false h mayWait w'

/-- An action is left while the host is asked only where it may be left then. -/
theorem mayWait_of_attempt {mayWait : Bool} {r : Run} {a : Action} {w w' : World σ} {q : Request}
    {since : Nat} (hattempt : (attempt h mayWait { r with phase := .pacing } a).exec w =
      (.ok (.waiting q since), w')) : mayWait = true := by
  change (do announce r a; a.start h mayWait : Act σ Begun).exec w = _ at hattempt
  rw [Act.exec_bind] at hattempt
  generalize (announce r a).exec w = out at hattempt
  obtain ⟨res, w''⟩ := out
  cases res with
  | error f => cases hattempt
  | ok u => exact (Action.waiting_of_start hattempt).1

/-! ## From one place to the next -/

/-- A part of an active run that may be left heads for the end of one that may not. -/
def Follows (h : Host σ) (p : Pauses) (bound : Nat) (whole part : Act σ (Run × Progress)) : Prop :=
  ∀ (r₀ r₁ : Run) (w : World σ),
    Heads h p bound (report (outcome r₀ (whole.exec w))) (outcome r₁ (part.exec w))

/-- What a part of an active run reports does not depend on the run that it is a part of. -/
theorem report_outcome (r₀ r₁ : Run) (out : Except Failure (Run × Progress) × World σ) :
    report (outcome r₀ out) = report (outcome r₁ out) := by
  obtain ⟨res, w⟩ := out
  cases res with
  | error f => rfl
  | ok x => rfl

/-- A run that is left behind an action heads for the end of one that is not left there. -/
theorem follows_applied {r : Run} {a : Action} {rest : List Action} (hrem : r.remaining = a :: rest)
    (e : Effect) {bound : Nat}
    (hbound : p.perAction * rest.length + p.steps.toNat ≤ bound)
    (honward : Follows h p (p.perAction * rest.length) (steps h {} r.next rest)
      (steps h p r.next rest)) :
    Follows h p bound (applied {} r a e (steps h {} r.next rest))
      (applied p r a e (steps h p r.next rest)) := by
  intro r₀ r₁ w
  cases e with
  | reload =>
    rw [exec_applied_reload, exec_applied_reload]
    generalize (r.remount a).exec w = out
    obtain ⟨res, w'⟩ := out
    cases res with
    | error f => exact .ends rfl rfl
    | ok u =>
      dsimp only
      cases hsteps : p.steps with
      | false => exact .ends rfl rfl
      | true =>
        refine .paused rfl ?_ ?_
        · rw [hsteps] at hbound
          change 0 < bound
          rw [Bool.toNat_true] at hbound
          omega
        · unfold endOf
          rw [run_advance_reloaded rfl]
          rfl
  | proceed =>
    unfold applied
    dsimp only
    cases hsteps : p.steps with
    | false =>
      refine (honward r₀ r₁ w).mono ?_
      omega
    | true =>
      have hnext := next_remaining hrem
      refine .paused rfl ?_ ?_
      · rw [hsteps, Bool.toNat_true] at hbound
        change p.perAction * r.next.remaining.length < bound
        rw [hnext]
        omega
      · unfold endOf
        rw [run_advance_between rfl]
        change report (outcome _ ((steps h {} { r.next with phase := .between }
          r.next.remaining).exec w)) = _
        rw [steps_with_phase, hnext]
        exact report_outcome _ r₀ _

/-- A run that waits in front of an action heads for the end of one that is not left. -/
theorem follows_step {r : Run} {a : Action} {rest : List Action} (hrem : r.remaining = a :: rest)
    {bound : Nat} (hbound : p.perAction * r.remaining.length - p.sleeps.toNat ≤ bound)
    (honward : Follows h p (p.perAction * rest.length) (steps h {} r.next rest)
      (steps h p r.next rest)) :
    Follows h p bound (step h {} r a (steps h {} r.next rest))
      (step h p r a (steps h p r.next rest)) := by
  intro r₀ r₁ w
  have hlength : p.perAction * r.remaining.length =
      p.perAction * rest.length + p.sleeps.toNat + p.requests.toNat + p.steps.toNat := by
    rw [hrem, List.length_cons, Nat.mul_succ, Pauses.perAction]
    omega
  rw [exec_step, exec_step, exec_attempt_false h p.requests]
  cases hattempt : (attempt h p.requests { r with phase := .pacing } a).exec w with
  | mk res w' =>
    cases res with
    | error f => exact .ends rfl rfl
    | ok b =>
      cases b with
      | applied e => exact follows_applied hrem e (by omega) honward r₀ r₁ w'
      | waiting q since =>
        have hwaits : p.requests = true := mayWait_of_attempt hattempt
        change Heads h p bound _ (({ r with phase := .asking q since }, .asking q), w')
        refine .paused rfl ?_ ?_
        · change p.perAction * r.remaining.length - p.sleeps.toNat - p.requests.toNat < bound
          rw [hwaits, Bool.toNat_true] at hlength ⊢
          omega
        · unfold endOf
          rw [run_advance_asking (r := { r with phase := .asking q since }) rfl hrem, Act.exec_bind]
          have hsettled : a.settled h (.ok (.waiting q since), w') =
              (((a.settle h q since).exec w').1.map .applied,
                ((a.settle h q since).exec w').2) := rfl
          rw [hsettled]
          generalize (a.settle h q since).exec w' = out
          obtain ⟨res, w''⟩ := out
          cases res with
          | error f => rfl
          | ok e =>
            have hnext : steps h {} ({ r with phase := .asking q since } : Run).next rest =
                steps h {} r.next rest := steps_with_phase h {} (.asking q since) rest r.next
            rw [hnext]
            exact report_outcome _ r₀ _

/-- A run between two actions heads for the end of one that is not left. The induction is on the
actions that are left. -/
theorem follows_steps (h : Host σ) (p : Pauses) (actions : List Action) {r : Run}
    (hrem : r.remaining = actions) :
    Follows h p (p.perAction * actions.length) (steps h {} r actions) (steps h p r actions) := by
  induction actions generalizing r with
  | nil => exact fun r₀ r₁ w => .ends rfl rfl
  | cons a rest ih =>
    intro r₀ r₁ w
    have honward := ih (next_remaining hrem)
    obtain ⟨w', hsleep⟩ := exec_sleep w.sequencer.pacing w
    unfold steps
    simp only [Act.exec_bind, Act.exec_get, hsleep, Bool.false_and, Bool.false_eq_true, if_false]
    cases hsleeps : p.sleeps && decide (w.sequencer.pacing > 0) with
    | false =>
      refine follows_step hrem ?_ honward r₀ r₁ w'
      rw [hrem]
      omega
    | true =>
      rw [Bool.and_eq_true] at hsleeps
      refine .paused rfl ?_ ?_
      · change p.perAction * r.remaining.length - p.sleeps.toNat < _
        rw [hrem, hsleeps.1, Bool.toNat_true, List.length_cons, Nat.mul_succ]
        have hone : 1 ≤ p.perAction := by
          rw [Pauses.perAction, hsleeps.1, Bool.toNat_true]
          omega
        omega
      · unfold endOf
        rw [run_advance_pacing (r := { r with phase := .pacing }) rfl hrem]
        have hnext : steps h {} ({ r with phase := .pacing } : Run).next rest =
            steps h {} r.next rest := steps_with_phase h {} .pacing rest r.next
        rw [hnext]
        exact report_outcome _ r₀ _

/-- **A run heads for its end.** Wherever a run goes on, it comes to the end that it would have if
it were not left any more, or it is left and heads for that end from there. -/
theorem heads_advance (h : Host σ) (p : Pauses) (r : Run) (w : World σ) :
    Heads h p (pausesLeft p r) (endOf h r w) ((advance h p r).run w) := by
  unfold endOf
  cases hph : r.phase with
  | fresh =>
    have hleft : pausesLeft p r = p.perAction * r.remaining.length := by rw [pausesLeft, hph]
    by_cases hrem : r.remaining = []
    · rw [run_advance_idle hph hrem, run_advance_idle hph hrem]
      exact .ends rfl rfl
    · rw [run_advance_fresh hph hrem, run_advance_fresh hph hrem]
      cases hbegin : r.begin.exec w with
      | mk res w' =>
        cases res with
        | error f => exact .ends rfl rfl
        | ok r' =>
          obtain ⟨id, since, rfl⟩ := begin_eq hbegin
          rw [hleft]
          exact follows_steps (r := { r with id := id, since := since }) h p r.remaining rfl _ _ w'
  | pacing =>
    have hleft : pausesLeft p r = p.perAction * r.remaining.length - p.sleeps.toNat := by
      rw [pausesLeft, hph]
    cases hrem : r.remaining with
    | nil =>
      have hbetween : r.isBetween = false := by rw [isBetween, hph]
      rw [run_advance_nothing hbetween hrem, run_advance_nothing hbetween hrem]
      exact .ends rfl rfl
    | cons a rest =>
      rw [run_advance_pacing hph hrem, run_advance_pacing hph hrem]
      exact follows_step hrem (Nat.le_of_eq hleft.symm)
        (follows_steps h p rest (next_remaining hrem)) r r w
  | asking q since =>
    have hleft : pausesLeft p r =
        p.perAction * r.remaining.length - p.sleeps.toNat - p.requests.toNat := by
      rw [pausesLeft, hph]
    cases hrem : r.remaining with
    | nil =>
      have hbetween : r.isBetween = false := by rw [isBetween, hph]
      rw [run_advance_nothing hbetween hrem, run_advance_nothing hbetween hrem]
      exact .ends rfl rfl
    | cons a rest =>
      rw [run_advance_asking hph hrem, run_advance_asking hph hrem, Act.exec_bind, Act.exec_bind]
      generalize (a.settle h q since).exec w = out
      obtain ⟨res, w'⟩ := out
      cases res with
      | error f => exact .ends rfl rfl
      | ok e =>
        have hbound : p.perAction * rest.length + p.steps.toNat ≤ pausesLeft p r := by
          rw [hleft, hrem, List.length_cons, Nat.mul_succ, Pauses.perAction]
          omega
        exact follows_applied hrem e hbound (follows_steps h p rest (next_remaining hrem)) r r w'
  | between =>
    have hleft : pausesLeft p r = p.perAction * r.remaining.length := by rw [pausesLeft, hph]
    rw [run_advance_between hph, run_advance_between hph, hleft]
    exact follows_steps h p r.remaining rfl r r w
  | reloaded =>
    rw [run_advance_reloaded hph, run_advance_reloaded hph]
    exact .ends rfl rfl
  | ended =>
    rw [run_advance_ended hph, run_advance_ended hph]
    exact .ends rfl rfl

/-- A run that goes on more often than it may be left comes to its end. The induction is on how many
times it goes on. -/
theorem exists_untilOver (h : Host σ) (p : Pauses) {n : Nat} {r : Run} (hn : pausesLeft p r < n)
    (w : World σ) : ∃ pauses, untilOver h p n r w = pauses ++ [endOf h r w] ∧ pauses.length < n ∧
      (∀ x ∈ pauses, x.1.isPause = true) ∧ (endOf h r w).1.isPause = false := by
  induction n generalizing r w with
  | zero => omega
  | succ n ih =>
    have hheads := heads_advance h p r w
    rw [untilOver]
    generalize (advance h p r).run w = out at hheads ⊢
    cases hheads with
    | ends hpause he =>
      rw [he]
      refine ⟨[], ?_, Nat.succ_pos n, fun x hx => absurd hx List.not_mem_nil, hpause⟩
      simp [hpause]
    | @paused r' progress w' hpause hleft he =>
      obtain ⟨pauses, hlater, hlength, hpauses, hend⟩ :=
        ih (Nat.lt_of_lt_of_le hleft (Nat.le_of_lt_succ hn)) w'
      rw [he] at hlater hend
      refine ⟨(progress, w') :: pauses, ?_, Nat.succ_lt_succ hlength, ?_, hend⟩
      · dsimp only
        rw [if_pos hpause, hlater]
        rfl
      · intro x hx
        rcases List.mem_cons.mp hx with rfl | hx
        · exact hpause
        · exact hpauses x hx

/-- A run that is not left any more reports the end of a complete run. -/
theorem endOf_ofWorkflow (h : Host σ) (workflow : Option Workflow) (w : World σ)
    (hend : (endOf h (ofWorkflow workflow) w).1.isPause = false) :
    endOf h (ofWorkflow workflow) w =
      (.ofResult ((complete h workflow).exec w).1, ((complete h workflow).exec w).2) := by
  rw [exec_complete]
  unfold endOf at hend ⊢
  generalize (advance h {} (ofWorkflow workflow)).run w = out at hend ⊢
  obtain ⟨⟨r, progress⟩, w'⟩ := out
  cases progress with
  | sleeping ms | asking q | stepped i id e => cases hend
  | done => rfl
  | failed f => rfl

/-- **Neither where a run is left nor its waiting time makes a difference.** A run that was started
and goes on alone is left three times at most for each action, or twice when it is not left after
every action; then it is over, with the result of a complete run and in the world that this one
leaves. As long as no observer looks at times, complete runs with different waiting times have the
same result and leave worlds that differ in nothing but times. -/
theorem goes_on_to_its_end (h : Host σ) (workflow : Option Workflow) (w : World σ) :
    (∀ stepwise : Bool,
      let s := StartedRun.new workflow stepwise
      let bound := (if stepwise then 3 else 2) * s.actions.length
      ∃ pauses, untilOver h s.pauses (bound + 1) s.run w =
          pauses ++
            [(.ofResult ((complete h workflow).exec w).1, ((complete h workflow).exec w).2)] ∧
        pauses.length ≤ bound ∧ ∀ x ∈ pauses, x.1.isPause = true) ∧
      ((∀ l ∈ w.listeners, l.IgnoresTimes) → ∀ ms ms' : Int,
        ((complete h workflow).exec (w.withPacing ms)).1 =
            ((complete h workflow).exec (w.withPacing ms')).1 ∧
          ((complete h workflow).exec (w.withPacing ms)).2.AlikeButTimes
            ((complete h workflow).exec (w.withPacing ms')).2) := by
  constructor
  · intro stepwise s bound
    have hperAction : s.pauses.perAction = if stepwise then 3 else 2 := by cases stepwise <;> rfl
    have hleft : pausesLeft s.pauses s.run = bound := by
      have hrem : s.run.remaining = s.actions := remaining_ofWorkflow workflow
      have hph : s.run.phase = .fresh := phase_ofWorkflow workflow
      rw [pausesLeft, hph, hrem, hperAction]
    obtain ⟨pauses, hreports, hlength, hpauses, hend⟩ :=
      exists_untilOver h s.pauses (Nat.lt_succ_of_le (Nat.le_of_eq hleft)) w
    refine ⟨pauses, ?_, Nat.le_of_lt_succ hlength, hpauses⟩
    have hover : endOf h s.run w =
        (.ofResult ((complete h workflow).exec w).1, ((complete h workflow).exec w).2) :=
      endOf_ofWorkflow h workflow w hend
    rw [← hover]
    exact hreports
  · intro hblind ms ms'
    have hworlds : (w.withPacing ms).AlikeButTimes (w.withPacing ms') :=
      ⟨rfl, rfl, rfl, rfl, rfl, rfl, rfl, .refl _, hblind⟩
    exact agreesUpTo_complete h workflow _ _ hworlds

/-- A run of a line, a dialog that waits and a reload, whose lines are printed: it is left seven
times, and with another waiting time its world differs in times only. -/
theorem goes_on_to_its_end_behind_reload :
    let x : Workflow := ⟨"Go", [⟨"a1", .showText, some [("text", "Hi")]⟩, ⟨"a2", .alert, none⟩,
      ⟨"a3", .refreshPage, none⟩, ⟨"a4", .showText, none⟩]⟩
    let w : World HostScript := {
      surface := .fresh, listeners := [Streaming.listener], shelf := ⟨.memory [], ⟨[], [], []⟩⟩
      host := { suspended := ["alert"] }, sequencer := .paced 5 }
    let s := StartedRun.new (some x) true
    (∀ l ∈ w.listeners, l.IgnoresTimes) ∧
      ((complete HostScript.host (some x)).exec (w.withPacing 0)).2.AlikeButTimes
        ((complete HostScript.host (some x)).exec (w.withPacing 5)).2 ∧
      (untilOver HostScript.host s.pauses 13 s.run w).map (·.1) =
        [.sleeping 5, .stepped 0 "a1" .proceed, .sleeping 5, .asking (.alert "Alert"),
          .stepped 1 "a2" .proceed, .sleeping 5, .stepped 2 "a3" .reload, .done] ∧
      (untilOver HostScript.host s.pauses 13 s.run w).getLast?.map (·.2) =
        some ((complete HostScript.host (some x)).exec w).2 := by
  intro x w s
  have hblind : ∀ l ∈ w.listeners, l.IgnoresTimes := by
    intro l hl
    rw [List.mem_singleton.mp hl]
    exact Streaming.ignoresTimes_listener
  obtain ⟨hends, htimes⟩ := goes_on_to_its_end HostScript.host (some x) w
  obtain ⟨pauses, hreports, -, -⟩ := hends true
  have hbound : (if true = true then 3 else 2) * (StartedRun.new (some x) true).actions.length + 1 =
      13 := by decide
  rw [hbound] at hreports
  refine ⟨hblind, (htimes hblind 0 5).2, by decide +kernel, ?_⟩
  rw [hreports, List.getLast?_concat, Option.map_some]

end Run

end PushButton
