import Mathlib.Data.List.Forall2
import PushButton.Proofs.Run.Course
import PushButton.Proofs.Run.Likeness
import PushButton.Run.Streaming

/-!
# Waiting times make no difference

Two runs that differ in the waiting time in front of their actions do the same, as long as no
observer looks at times: their worlds differ in nothing but how much time has passed, the waiting
times, and the times that are told in records.
-/

namespace PushButton

variable {σ : Type}

/-! ## Times in records -/

/-- A text tells a time. -/
inductive Text.TellsTime : Text → Prop
  /-- Milliseconds. -/
  | milliseconds (n : Nat) : TellsTime (Text.ofNat n ++ " ms")
  /-- Milliseconds or seconds. -/
  | shown (ms : Int) : TellsTime (Duration.shown ms)

/-- Two records say the same, except for a time that they tell. -/
structure Record.SameButTime (r r' : Record) : Prop where
  /-- The messages are the same around the times. -/
  message : ∃ before t t' after : Text, t.TellsTime ∧ t'.TellsTime ∧
    r.message = before ++ t ++ after ∧ r'.message = before ++ t' ++ after
  /-- Everything else is the same. -/
  rest : { r with message := r'.message } = r'

/-- Two occurrences are the same, or they are records that differ in a time that they tell. -/
inductive Occurrence.SameButTime : Occurrence → Occurrence → Prop
  /-- The same occurrence. -/
  | refl (o : Occurrence) : SameButTime o o
  /-- Records that tell times. -/
  | logged {r r' : Record} : r.SameButTime r' → SameButTime (.logged r) (.logged r')

instance : Std.Refl Occurrence.SameButTime := ⟨.refl⟩

/-- Milliseconds pass. -/
def Occurrence.isSleep : Occurrence → Bool
  | .slept _ => true
  | _ => false

/-- The same has happened twice, except for waiting times and times that records tell. -/
def SameButTimes (past past' : List Occurrence) : Prop :=
  List.Forall₂ Occurrence.SameButTime (past.filter (!·.isSleep)) (past'.filter (!·.isSleep))

namespace SameButTimes

variable {past past' : List Occurrence}

/-- What has happened is the same as itself. -/
theorem refl (past : List Occurrence) : SameButTimes past past :=
  List.forall₂_refl _

/-- The same happens. -/
theorem append (os : List Occurrence) (h : SameButTimes past past') :
    SameButTimes (os ++ past) (os ++ past') := by
  unfold SameButTimes
  rw [List.filter_append, List.filter_append]
  exact List.rel_append (List.forall₂_refl _) h

/-- Records that tell times are made. -/
theorem cons_logged {r r' : Record} (hr : r.SameButTime r') (h : SameButTimes past past') :
    SameButTimes (.logged r :: past) (.logged r' :: past') :=
  List.Forall₂.cons (.logged hr) h

/-- Waiting times do not count. -/
theorem cons_slept (ms ms' : Nat) (h : SameButTimes past past') :
    SameButTimes (if ms > 0 then .slept ms :: past else past)
      (if ms' > 0 then .slept ms' :: past' else past') := by
  have hcons (n : Nat) (past : List Occurrence) :
      (if n > 0 then .slept n :: past else past).filter (!·.isSleep) =
        past.filter (!·.isSleep) := by
    split
    · rfl
    · rfl
  unfold SameButTimes
  rw [hcons, hcons]
  exact h

end SameButTimes

/-- Two records that tell milliseconds between the same texts. -/
theorem Record.sameButTime_of_milliseconds (level : Level) (logger before after : Text)
    (context : Context) (n n' : Nat) :
    Record.SameButTime ⟨level, logger, before ++ (Text.ofNat n ++ " ms") ++ after, context, none⟩
      ⟨level, logger, before ++ (Text.ofNat n' ++ " ms") ++ after, context, none⟩ :=
  ⟨⟨before, _, _, after, .milliseconds n, .milliseconds n', rfl, rfl⟩, rfl⟩

/-- Two records about how long something took differ in the time that it took. -/
theorem Duration.sameButTime_record (label level : Text) (start now start' now' : Int) :
    (record label level start now).SameButTime (record label level start' now') :=
  ⟨⟨label ++ " took ", _, _, [], .shown _, .shown _, (List.append_nil _).symm,
    (List.append_nil _).symm⟩, rfl⟩

/-! ## Worlds that differ in times -/

/-- An observer that does not look at times. -/
def Listener.IgnoresTimes (l : Listener) : Prop :=
  ∀ field s past past', SameButTimes past past' → l.react field s past = l.react field s past'

/-- The observer that prints the lines does not look at times. -/
theorem Streaming.ignoresTimes_listener : listener.IgnoresTimes := by
  have hslept (past : List Occurrence) :
      printedLines past = printedLines (past.filter (!·.isSleep)) := by
    induction past with
    | nil => rfl
    | cons o past ih =>
      cases o with
      | notified l f lines images =>
        cases f with
        | output =>
          change (if l = name then lines else printedLines past) =
            (if l = name then lines else printedLines (past.filter _))
          rw [ih]
        | images | scale | color | disabled => exact ih
      | logged r | slept ms | asked r | called c | printed t => exact ih
  have htold {past past' : List Occurrence}
      (h : List.Forall₂ Occurrence.SameButTime past past') :
      printedLines past = printedLines past' := by
    induction h with
    | nil => rfl
    | @cons o o' past past' hsame hrest ih =>
      cases hsame with
      | logged hr => exact ih
      | refl =>
        cases o with
        | notified l f lines images =>
          cases f with
          | output =>
            change (if l = name then lines else printedLines past) =
              (if l = name then lines else printedLines past')
            rw [ih]
          | images | scale | color | disabled => exact ih
        | logged r | slept ms | asked r | called c | printed t => exact ih
  intro field s past past' hpast
  have hprinted : printedLines past = printedLines past' :=
    (hslept past).trans ((htold hpast).trans (hslept past').symm)
  cases field with
  | output =>
    change Reaction.mk ((s.output.drop (min (printedLines past) s.output.length)).map shown) _ _ =
      Reaction.mk ((s.output.drop (min (printedLines past') s.output.length)).map shown) _ _
    rw [hprinted]
  | images | scale | color | disabled => rfl

/-- Two worlds differ in nothing but times, and no observer looks at these. -/
structure World.AlikeButTimes (w w' : World σ) : Prop where
  /-- The surface is the same. -/
  surface : w.surface = w'.surface
  /-- The observers are the same. -/
  listeners : w.listeners = w'.listeners
  /-- The storage and the files are the same. -/
  shelf : w.shelf = w'.shelf
  /-- The random numbers to come are the same. -/
  draws : w.draws = w'.draws
  /-- As many run ids were given. -/
  runIds : w.runIds = w'.runIds
  /-- The host is in the same state. -/
  host : w.host = w'.host
  /-- The same is known about the runs. -/
  runs : { w.sequencer with pacing := 0 } = { w'.sequencer with pacing := 0 }
  /-- The same has happened. -/
  past : SameButTimes w.past w'.past
  /-- No observer looks at times. -/
  blind : ∀ l ∈ w.listeners, l.IgnoresTimes

/-- Worlds that differ in times are like each other for all that actions look at. -/
instance : World.Likeness (World.AlikeButTimes (σ := σ)) where
  surface hw := hw.surface
  listeners hw := hw.listeners
  shelf hw := hw.shelf
  draws hw := hw.draws
  blind hw l hl field u u' hu := by
    rw [hu.surface]
    exact hw.blind l hl field _ _ _ hu.past
  after os hw := { hw with past := hw.past.append os.reverse }
  with_surface s hw := { hw with surface := rfl }
  with_listeners hls hw :=
    { hw with listeners := rfl, blind := fun l hl => hw.blind l (hls.subset hl) }
  with_shelf s hw := { hw with shelf := rfl }
  with_draws ns hw := { hw with draws := rfl }
  took label _ _ _ hw :=
    { hw with past := hw.past.cons_logged (Duration.sameButTime_record label "DEBUG" _ _ _ _) }

instance (h : Host σ) : h.Heeds World.AlikeButTimes :=
  .of_same (·.host) fun _ hw => { hw with host := rfl }

/-- The past of a world behind a waiting time. -/
theorem Act.exec_sleep (ms : Nat) (w : World σ) :
    (sleep ms).exec w = (.ok (), { w with
      clock := w.clock + ms
      past := if ms > 0 then .slept ms :: w.past else w.past }) := by
  unfold sleep
  by_cases hms : ms > 0
  · rw [if_pos hms, if_pos hms]
    rfl
  · obtain rfl : ms = 0 := by omega
    rfl

namespace Run

variable {h : Host σ}

/-- Waiting times may differ. -/
theorem agreesUpTo_sleep (ms ms' : Nat) :
    Act.AgreesUpTo World.AlikeButTimes (Act.sleep ms : Act σ Unit) (Act.sleep ms') := by
  intro w w' hw
  rw [Act.exec_sleep, Act.exec_sleep]
  exact ⟨rfl, { hw with past := hw.past.cons_slept ms ms' }⟩

/-- The same action is taken up. -/
theorem agreesUpTo_announce (r : Run) (a : Action) :
    Act.AgreesUpTo World.AlikeButTimes (r.announce a : Act σ Unit) (r.announce a) := by
  refine (Act.AgreesUpTo.modify fun w w' hw => ?_).bind fun _ => Act.agreesUpTo_occur _
  exact { hw with runs := congrArg (fun s => { s with current := some r.index }) hw.runs }

/-- An action is played behind another waiting time. -/
theorem agreesUpTo_play (r : Run) (ms ms' : Nat) (a : Action) :
    Act.AgreesUpTo World.AlikeButTimes (r.play h ms a) (r.play h ms' a) := by
  refine (agreesUpTo_sleep ms ms').bind fun _ => (agreesUpTo_announce r a).bind fun _ => ?_
  refine (Action.agreesUpTo_apply h a).bind fun e => ?_
  cases e with
  | proceed => exact Act.AgreesUpTo.pure _
  | reload =>
    have hremount : Act.AgreesUpTo World.AlikeButTimes (r.remount a : Act σ Unit) (r.remount a) :=
      (Act.agreesUpTo_occur _).bind fun _ => Act.agreesUpTo_remake
    exact hremount.bind fun _ => Act.AgreesUpTo.pure _

/-- Runs end alike. -/
theorem alikeButTimes_released {w w' : World σ} (hw : w.AlikeButTimes w') :
    w.released.AlikeButTimes w'.released :=
  { hw with runs := congrArg release hw.runs }

/-- The records of runs that have applied all their actions differ in the time since they began. -/
theorem alikeButTimes_finish (r : Run) (since since' : Nat) {w w' : World σ}
    (hw : w.AlikeButTimes w') :
    ((finish { r with since := since }).exec w).2.AlikeButTimes
      ((finish { r with since := since' }).exec w').2 := by
  let after : Text := " (output lines=" ++ Text.ofNat w.surface.output.length ++ ")"
  have hmessage (u : World σ) (hu : w.surface = u.surface) (n : Nat) :
      ("Workflow finished in " ++ Text.ofNat n ++ " ms (output lines=" ++
        Text.ofNat u.surface.output.length ++ ")" : Text) =
          "Workflow finished in " ++ (Text.ofNat n ++ " ms") ++ after := by
    simp [after, hu, Text.ofString]
  have hpast := hw.past.cons_logged (Record.sameButTime_of_milliseconds .info logger
    "Workflow finished in " after r.context (Duration.between since w.clock)
    (Duration.between since' w'.clock))
  rw [← hmessage w rfl, ← hmessage w' hw.surface] at hpast
  exact { hw with past := hpast }

/-- What comes of active runs that have the same actions left differs in times only. The induction
is on these actions. -/
theorem agrees_remainder (ms ms' since since' : Nat) (actions : List Action) {r : Run}
    {w w' : World σ} (hw : w.AlikeButTimes w') :
    (remainder h ms { r with since := since } actions w).result =
        (remainder h ms' { r with since := since' } actions w').result ∧
      (remainder h ms { r with since := since } actions w).world.AlikeButTimes
        (remainder h ms' { r with since := since' } actions w').world := by
  induction actions generalizing r w w' with
  | nil => exact ⟨rfl, alikeButTimes_released (alikeButTimes_finish r since since' hw)⟩
  | cons a rest ih =>
    have hplay : Act.AgreesUpTo World.AlikeButTimes (r.play h ms a) (r.play h ms' a) :=
      agreesUpTo_play r ms ms' a
    obtain ⟨res, u, u', hu, hu', hlike⟩ := hplay.exists_exec hw
    have hu : (({ r with since := since } : Run).play h ms a).exec w = (res, u) := hu
    have hu' : (({ r with since := since' } : Run).play h ms' a).exec w' = (res, u') := hu'
    rw [remainder_cons, remainder_cons, hu, hu']
    cases res with
    | error f => exact ⟨rfl, alikeButTimes_released hlike⟩
    | ok e =>
      cases e with
      | reload => exact ⟨rfl, alikeButTimes_released hlike⟩
      | proceed => exact ih (r := r.next) hlike

/-- The world in which a run has its id, before lines and images are taken away. -/
def numbered (r : Run) (w : World σ) : World σ :=
  { w with
    runIds := w.runIds + 1
    sequencer := { w.sequencer with
      started := w.sequencer.started + 1, active := w.sequencer.active + 1 } }.after
    [.logged ⟨.info, logger, "Starting workflow '" ++ r.label ++ "' (actions=" ++
      Text.ofNat r.total ++ ", pacing=" ++ Text.ofNat w.sequencer.pacing ++ " ms)",
      [("run_id", .text (idOf (w.runIds + 1)))], none⟩]

/-- A run begins by getting its id and taking lines and images away. -/
theorem exec_begin (r : Run) (w : World σ) :
    r.begin.exec w =
      ((Act.clear.exec (r.numbered w)).1.map fun _ =>
          { r with id := idOf (w.runIds + 1), since := w.clock },
        (Act.clear.exec (r.numbered w)).2) := by
  unfold begin log
  simp only [Act.exec_bind, Act.exec_modify, Act.exec_get, Act.exec_log]
  generalize hnumbered : World.after _ [_] = u
  obtain rfl : r.numbered w = u := hnumbered
  generalize Act.clear.exec (r.numbered w) = out
  obtain ⟨res, w'⟩ := out
  cases res with
  | error f => rfl
  | ok u => rfl

/-- The records of runs that begin differ in the waiting time. -/
theorem alikeButTimes_numbered (r : Run) {w w' : World σ} (hw : w.AlikeButTimes w') :
    (r.numbered w).AlikeButTimes (r.numbered w') := by
  let before : Text :=
    "Starting workflow '" ++ r.label ++ "' (actions=" ++ Text.ofNat r.total ++ ", pacing="
  have hmessage (n : Nat) : ("Starting workflow '" ++ r.label ++ "' (actions=" ++
      Text.ofNat r.total ++ ", pacing=" ++ Text.ofNat n ++ " ms)" : Text) =
        before ++ (Text.ofNat n ++ " ms") ++ ")" := by
    simp [before, Text.ofString]
  have hpast := hw.past.cons_logged (Record.sameButTime_of_milliseconds .info logger before ")"
    [("run_id", .text (idOf (w.runIds + 1)))] w.sequencer.pacing w'.sequencer.pacing)
  rw [← hmessage, ← hmessage] at hpast
  refine { hw with runIds := congrArg (· + 1) hw.runIds, runs := ?_, past := ?_ }
  · exact congrArg (fun s => { s with started := s.started + 1, active := s.active + 1 }) hw.runs
  · unfold numbered
    rw [← hw.runIds]
    exact hpast

/-- What comes of runs that begin differs in times only. -/
theorem agrees_course (ms ms' : Nat) (r : Run) {w w' : World σ} (hw : w.AlikeButTimes w') :
    (r.course h ms w).result = (r.course h ms' w').result ∧
      (r.course h ms w).world.AlikeButTimes (r.course h ms' w').world := by
  have hclear : Act.AgreesUpTo World.AlikeButTimes (Act.clear : Act σ Unit) Act.clear :=
    Act.agreesUpTo_clear
  obtain ⟨res, u, u', hu, hu', hlike⟩ := hclear.exists_exec (r.alikeButTimes_numbered hw)
  unfold course
  rw [exec_begin, exec_begin, hu, hu', ← hw.runIds]
  cases res with
  | error f => exact ⟨rfl, hlike⟩
  | ok _ =>
    exact agrees_remainder (r := { r with id := idOf (w.runIds + 1) }) ms ms' w.clock w'.clock
      r.remaining hlike

/-- **Waiting times make no difference.** Two complete runs in worlds that differ in nothing but
times have the same result and leave worlds that differ in nothing but times. -/
theorem agreesUpTo_complete (h : Host σ) (workflow : Option Workflow) :
    Act.AgreesUpTo World.AlikeButTimes (complete h workflow) (complete h workflow) := by
  intro w w' hw
  by_cases hnothing : (ofWorkflow workflow).remaining = []
  · rw [complete_of_nothing h hnothing, complete_of_nothing h hnothing]
    exact ⟨rfl, World.Likeness.after _ hw⟩
  · cases workflow with
    | none => exact absurd rfl hnothing
    | some x =>
      rw [complete_eq_course rfl hnothing, complete_eq_course rfl hnothing]
      obtain ⟨hresult, hworlds⟩ := agrees_course (h := h) w.sequencer.pacing w'.sequencer.pacing
        (ofWorkflow (some x)) hw
      exact ⟨congrArg (Except.map fun _ => ()) hresult, hworlds⟩

end Run

end PushButton
