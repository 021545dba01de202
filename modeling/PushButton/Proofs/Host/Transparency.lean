import Mathlib.Data.List.Induction
import PushButton.Proofs.Host.Mediation
import PushButton.Proofs.Run.Departure

/-!
# Runs behind a browser

The runs of actions that keep the surface cannot tell whether a browser stands between them and the
host that answers their dialogs: they leave the same surface and the same storage, and that host
receives the same requests in the same order, whether the runs are driven as a whole or in turns.
-/

namespace PushButton

variable {σ τ ρ : Type}

/-! ## Turns in worlds that are like each other -/

/-- The actions of a workflow with which a run is started in a turn. -/
def Turn.actions : Turn → List Action
  | .start workflow _ => (workflow.map Workflow.actions).getD []
  | .resume _ | .cancel _ | .close _ => []

namespace Traffic

variable {R : World σ → World τ → Prop} {t : Traffic σ} {t' : Traffic τ}

/-- Two situations in concert: the runs are the same, and the worlds are like each other. -/
structure InConcert (R : World σ → World τ → Prop) (t : Traffic σ) (t' : Traffic τ) : Prop where
  /-- The runs are the same. -/
  runs : t.runs = t'.runs
  /-- The worlds are like each other. -/
  world : R t.world t'.world

/-- What is done alike with the runs that are there keeps situations in concert. -/
theorem InConcert.drive (ht : InConcert R t t') (k : Nat) {f : StartedRun → StateM (World σ) Run}
    {f' : StartedRun → StateM (World τ) Run} (hf : ∀ s ∈ t'.runs, Run.GoesAlike R (f s) (f' s)) :
    InConcert R (t.drive k f) (t'.drive k f') := by
  cases hs : t'.runs[k]? with
  | none =>
    unfold Traffic.drive
    rw [ht.runs, hs]
    exact ⟨ht.runs, ht.world⟩
  | some s =>
    obtain ⟨hrun, hworlds⟩ := hf s (List.mem_of_getElem? hs) _ _ ht.world
    rw [drive_of_getElem? (ht.runs ▸ hs), drive_of_getElem? hs, hrun, ht.runs]
    exact ⟨rfl, hworlds⟩

/-- What is done with a run leaves it its workflow. -/
theorem forall_actions_drive {K : Action → Prop} (ht : ∀ s ∈ t.runs, ∀ a ∈ s.actions, K a) (k : Nat)
    (f : StartedRun → StateM (World σ) Run) :
    ∀ s ∈ (t.drive k f).runs, ∀ a ∈ s.actions, K a := by
  cases hs : t.runs[k]? with
  | none =>
    unfold Traffic.drive
    rw [hs]
    exact ht
  | some s =>
    rw [drive_of_getElem? hs]
    intro s' hs'
    obtain hs' | rfl := List.mem_or_eq_of_mem_set hs'
    · exact ht s' hs'
    · exact ht s (List.mem_of_getElem? hs)

/-- The actions of the runs are those of the turns in which they were started. -/
theorem forall_actions_take {K : Action → Prop} (h : Host σ) {turn : Turn}
    (hturn : ∀ a ∈ turn.actions, K a) (ht : ∀ s ∈ t.runs, ∀ a ∈ s.actions, K a) :
    ∀ s ∈ (t.take h turn).runs, ∀ a ∈ s.actions, K a := by
  cases turn with
  | start workflow stepwise =>
    intro s hs
    obtain hs | hs := List.mem_append.mp hs
    · exact ht s hs
    · obtain rfl := List.mem_singleton.mp hs
      exact hturn
  | resume k => exact forall_actions_drive ht k _
  | cancel k | close k => exact forall_actions_drive ht k (giveUp h)

variable [World.Concert R] {h : Host σ} {h' : Host τ}

/-- A turn is taken alike, when the hosts meet the requests of the runs alike. -/
theorem InConcert.take {w : World τ} {ds : List (Nat × Deed)} (hist : History h' ⟨w, []⟩ ds t')
    (ht : InConcert R t t') (hmet : ∀ s ∈ t'.runs, ∀ a ∈ s.actions, a.IsMetAlike h h' R)
    (habandon : ∀ s ∈ t'.runs, ∀ a ∈ s.actions, ∀ q, a.request? = some q →
      Act.AgreesUpTo R (Act.abandon h q) (Act.abandon h' q)) (turn : Turn) :
    InConcert R (t.take h turn) (t'.take h' turn) := by
  -- a run that has not ended waits for its actions in order
  have hremaining {s : StartedRun} (hs : s ∈ t'.runs) (hph : s.run.phase ≠ .ended) :
      ∀ a ∈ s.run.remaining, a ∈ s.actions := by
    obtain ⟨k, hk⟩ := List.mem_iff_getElem?.mp hs
    obtain ⟨-, hpresent, -⟩ := hist.appliedBy_prefix hk
    rw [(hpresent hph).2]
    exact fun a ha => List.mem_of_mem_drop ha
  have hasking {s : StartedRun} (hs : s ∈ t'.runs) {q : Request} {since : Nat}
      (hph : s.run.phase = .asking q since) :
      ∃ a rest, s.run.remaining = a :: rest ∧ a.request? = some q ∧ a ∈ s.actions := by
    obtain ⟨a, rest, hrem, hq⟩ := hist.isSound nofun s hs q since hph
    exact ⟨a, rest, hrem, hq, hremaining hs (by rw [hph]; nofun) a (by simp [hrem])⟩
  have hgivenUp : ∀ s ∈ t'.runs, Run.GoesAlike R (giveUp h s) (giveUp h' s) := by
    intro s hs
    unfold giveUp
    split
    · exact Run.goesAlike_close s.run
    · refine (Run.goesAlike_cancel fun q since hph => ?_).map _
      obtain ⟨a, -, -, hq, ha⟩ := hasking hs hph
      exact habandon s hs a ha q hq
  cases turn with
  | start workflow stepwise => exact ⟨congrArg (· ++ _) ht.runs, ht.world⟩
  | resume k =>
    refine ht.drive k fun s hs => (Run.goesAlike_advance s.pauses ?_ ?_).map _
    · exact fun hph a ha => hmet s hs a (hremaining hs hph a ha)
    · intro q since a rest hph hrem
      obtain ⟨a', rest', hrem', hq, ha⟩ := hasking hs hph
      obtain ⟨rfl, -⟩ := List.cons.inj (hrem.symm.trans hrem')
      exact (hmet s hs a ha).agreesUpTo_settle hq (.inl rfl)
  | cancel k => exact ht.drive k hgivenUp
  | close k => exact ht.drive k hgivenUp

/-- Whatever is done with runs is done alike, when the hosts meet the requests of their actions
alike. The induction is on the turns, the last of which is taken behind the others. -/
theorem inConcert_takeAll {K : Action → Prop} (hmet : ∀ a, K a → a.IsMetAlike h h' R)
    (habandon : ∀ a q, K a → a.request? = some q →
      Act.AgreesUpTo R (Act.abandon h q) (Act.abandon h' q)) {w : World σ} {w' : World τ}
    (hw : R w w') {turns : List Turn} (hturns : ∀ turn ∈ turns, ∀ a ∈ turn.actions, K a) :
    InConcert R (takeAll h ⟨w, []⟩ turns) (takeAll h' ⟨w', []⟩ turns) ∧
      ∀ s ∈ (takeAll h' ⟨w', []⟩ turns).runs, ∀ a ∈ s.actions, K a := by
  induction turns using List.reverseRecOn with
  | nil => exact ⟨⟨rfl, hw⟩, nofun⟩
  | append_singleton turns turn ih =>
    obtain ⟨hconcert, hactions⟩ := ih fun turn hturn => hturns turn (by simp [hturn])
    have hsound : ∀ s ∈ (⟨w', []⟩ : Traffic τ).runs, s.run.IsSound := nofun
    obtain ⟨ds, hist⟩ := History.exists_takeAll h' hsound turns
    unfold takeAll at hconcert hactions hist ⊢
    rw [List.foldl_append, List.foldl_append]
    refine ⟨hconcert.take hist ?_ ?_ turn, ?_⟩
    · exact fun s hs a ha => hmet a (hactions s hs a ha)
    · exact fun s hs a ha q => habandon a q (hactions s hs a ha)
    · exact forall_actions_take h' (hturns turn (by simp)) hactions

end Traffic

/-! ## Worlds with other hosts -/

/-- The same world with another host. -/
def World.on (w : World σ) (s : τ) : World τ := { w with host := s }

/-- The world in which a browser stands in front of the host. -/
def World.behind (w : World ρ) (b : Browser τ) : World (Browser ρ) :=
  w.on { b with responder := w.host }

/-- A host that notes what it is asked. -/
def Host.noting (h : Host ρ) : Host (ρ × List Request) where
  ask r s :=
    let (reply, s', os) := h.ask r s.1
    (reply, (s', s.2 ++ [r]), os)
  settle r s :=
    let (reply, s', os) := h.settle r s.1
    (reply, (s', s.2), os)
  abandon r s :=
    let (s', os) := h.abandon r s.1
    ((s', s.2), os)

/-- A host that answers dialogs does so when it notes what it is asked. -/
theorem Host.AnswersDialogs.noting {h : Host ρ} {Q : ρ → Prop} (hanswers : h.AnswersDialogs Q) :
    h.noting.AnswersDialogs fun s => Q s.1 where
  ask hr hs := hanswers.ask hr hs
  refuses hr hs hf := hanswers.refuses hr hs hf
  settle hr hs := hanswers.settle hr hs
  refusesLater hr hs hf := hanswers.refusesLater hr hs hf
  abandon hr hs := hanswers.abandon hr hs

/-! ## Hosts that note -/

/-- Two worlds are the same but for what a host has noted. -/
def World.Noted (w : World (σ × List Request)) (v : World σ) : Prop := v = w.on w.host.1

/-- Worlds that are the same but for notes are like each other for all that runs look at. -/
instance : World.Concert (World.Noted (σ := σ)) where
  surface hw := hw ▸ rfl
  listeners hw := hw ▸ rfl
  shelf hw := hw ▸ rfl
  draws hw := hw ▸ rfl
  blind _ _ _ _ _ _ hu := hu ▸ rfl
  after _ hw := hw ▸ rfl
  with_surface _ hw := hw ▸ rfl
  with_listeners _ hw := hw ▸ rfl
  with_shelf _ hw := hw ▸ rfl
  with_draws _ hw := hw ▸ rfl
  took label since since' hsince hw := by
    subst hw
    obtain rfl | ⟨u, u', hu, rfl, rfl⟩ := hsince
    · rfl
    · subst hu
      rfl
  clock hw := hw ▸ rfl
  runIds hw := hw ▸ rfl
  pacing hw := hw ▸ rfl
  elapsed _ hw := hw ▸ rfl
  begun hw := hw ▸ rfl
  reached _ hw := hw ▸ rfl
  released hw := hw ▸ rfl

/-- A host that notes meets every request as it does without notes. -/
theorem Action.isMetAlike_noting (h : Host σ) (a : Action) :
    a.IsMetAlike h.noting h World.Noted where
  ask {w v r} _ hw := by
    subst hw
    refine ⟨?_, rfl⟩
    change Option.Rel _ (h.ask r w.host.1).1 (h.ask r w.host.1).1
    cases (h.ask r w.host.1).1 with
    | none => exact .none
    | some reply => exact .some (agreesUpTo_conclude a reply)
  settle {w v r} _ hw := by
    subst hw
    exact ⟨agreesUpTo_conclude a _, rfl⟩

/-- A host that notes gives up every request as it does without notes. -/
theorem Act.agreesUpTo_abandon_noting (h : Host σ) (q : Request) :
    AgreesUpTo World.Noted (abandon h.noting q) (abandon h q) := by
  intro w v hw
  subst hw
  exact ⟨rfl, rfl⟩

/-- A complete run does not depend on the notes of its host. -/
theorem Run.exec_complete_noting (h : Host σ) (workflow : Option Workflow) (w : World σ)
    (notes : List Request) :
    ((complete h.noting workflow).exec (w.on (w.host, notes))).1 =
        ((complete h workflow).exec w).1 ∧
      World.Noted ((complete h.noting workflow).exec (w.on (w.host, notes))).2
        ((complete h workflow).exec w).2 :=
  agreesUpTo_complete_of_isMetAlike (fun a _ => Action.isMetAlike_noting h a) _ _ rfl

/-- Turns do not depend on the notes of their host. -/
theorem Traffic.inConcert_takeAll_noting (h : Host σ) (w : World σ) (notes : List Request)
    (turns : List Turn) : InConcert World.Noted (takeAll h.noting ⟨w.on (w.host, notes), []⟩ turns)
      (takeAll h ⟨w, []⟩ turns) := by
  have hw : World.Noted (w.on (w.host, notes)) w := rfl
  have hany : ∀ turn ∈ turns, ∀ a ∈ turn.actions, True := fun _ _ _ _ => trivial
  exact (inConcert_takeAll (fun a _ => Action.isMetAlike_noting h a)
    (fun _ q _ _ => Act.agreesUpTo_abandon_noting h q) hw hany).1

/-! ## Transparent browsers -/

section Browsers

variable {Q : ρ → Prop} {h : Host ρ} {w : World ρ} {b : Browser τ}

/-- A browser that shows dialogs mediates between a world and its answering host. -/
theorem World.mediated_behind (hb : b.ShowsDialogs) (hstate : Q w.host)
    (hblind : ∀ l ∈ w.listeners, l.IgnoresAsides) : World.Mediated Q (w.behind b) w where
  surface := rfl
  listeners := rfl
  shelf := rfl
  draws := rfl
  clock := rfl
  runIds := rfl
  sequencer := rfl
  responder := rfl
  answers := hstate
  shows := ⟨hb.page, hb.raises, hb.accepts, hb.dismisses⟩
  past := rfl
  blind := hblind

/-- A browser gives up a dialog as the answering host does. -/
theorem Action.KeepsSurface.agreesUpTo_abandon (hanswers : h.AnswersDialogs Q) {a : Action}
    (ha : a.KeepsSurface) {q : Request} (hq : a.request? = some q) :
    Act.AgreesUpTo (World.Mediated Q) (Act.abandon (Browser.host h) q) (Act.abandon h q) := by
  intro w v hw
  obtain ⟨hdialog, -⟩ := ha.exists_script hq
  obtain ⟨os, hos, habandon⟩ := BrowserAct.exists_exec_abandon h q w.host
  rw [Act.exec_abandon, Act.exec_abandon]
  change _ ∧ World.Mediated Q
    ({ w with host := (BrowserAct.exec (Browser.abandon h q) (w.host, [])).2.1 }.after
      (BrowserAct.exec (Browser.abandon h q) (w.host, [])).2.2) _
  rw [habandon, hw.responder]
  refine ⟨rfl, ?_⟩
  exact hw.with_host (w.host.calls + 1) rfl (hanswers.abandon hdialog hw.answers)
    (Occurrence.filter_append_asides _ hos)

/-- A complete run behind a browser goes as it does with the answering host. -/
theorem Run.agreesUpTo_complete_behind (hanswers : h.AnswersDialogs Q) {workflow : Option Workflow}
    (hkeeps : ∀ a ∈ (ofWorkflow workflow).remaining, a.KeepsSurface) :
    Act.AgreesUpTo (World.Mediated Q) (complete (Browser.host h) workflow) (complete h workflow) :=
  agreesUpTo_complete_of_isMetAlike fun a ha => (hkeeps a ha).isMetAlike hanswers

/-- Turns behind a browser go as they do with the answering host. -/
theorem Traffic.inConcert_takeAll_behind (hanswers : h.AnswersDialogs Q) (hb : b.ShowsDialogs)
    (hstate : Q w.host) (hblind : ∀ l ∈ w.listeners, l.IgnoresAsides) {turns : List Turn}
    (hkeeps : ∀ turn ∈ turns, ∀ a ∈ turn.actions, a.KeepsSurface) :
    InConcert (World.Mediated Q) (takeAll (Browser.host h) ⟨w.behind b, []⟩ turns)
      (takeAll h ⟨w, []⟩ turns) :=
  (inConcert_takeAll (fun _ ha => Action.KeepsSurface.isMetAlike ha hanswers)
    (fun _ _ ha hq => Action.KeepsSurface.agreesUpTo_abandon hanswers ha hq)
    (World.mediated_behind hb hstate hblind) hkeeps).1

/-- **A browser is transparent for dialogs.** With a page that shows dialogs, and a host that meets
every message and every question or refuses it, a complete run of actions that keep the surface has
the same result behind the browser as with that host alone, and nothing is different in the end but
the browser: the surface, the storage and the state of that host are the same. What that host has
noted, when it notes what it is asked, is the same too, and the notes change nothing. All this is
true at every moment of any number of such runs that are started, go on and are given up in any
order. -/
theorem Browser.mediates_dialogs (hanswers : h.AnswersDialogs Q) (hb : b.ShowsDialogs)
    (hstate : Q w.host) (hblind : ∀ l ∈ w.listeners, l.IgnoresAsides) :
    (∀ workflow, (∀ a ∈ (Run.ofWorkflow workflow).remaining, a.KeepsSurface) →
      let mediated := (Run.complete (Browser.host h) workflow).exec (w.behind b)
      let direct := (Run.complete h workflow).exec w
      let notedBehind :=
        (Run.complete (Browser.host h.noting) workflow).exec ((w.on (w.host, [])).behind b)
      let noted := (Run.complete h.noting workflow).exec (w.on (w.host, []))
      mediated.1 = direct.1 ∧ mediated.2.Mediated Q direct.2 ∧
        notedBehind.2.host.responder.2 = noted.2.host.2 ∧ noted.2.Noted direct.2) ∧
    ∀ turns, (∀ turn ∈ turns, ∀ a ∈ Turn.actions turn, a.KeepsSurface) →
      let mediated := Traffic.takeAll (Browser.host h) ⟨w.behind b, []⟩ turns
      let direct := Traffic.takeAll h ⟨w, []⟩ turns
      let notedBehind :=
        Traffic.takeAll (Browser.host h.noting) ⟨(w.on (w.host, [])).behind b, []⟩ turns
      let noted := Traffic.takeAll h.noting ⟨w.on (w.host, []), []⟩ turns
      mediated.runs = direct.runs ∧ mediated.world.Mediated Q direct.world ∧
        notedBehind.world.host.responder.2 = noted.world.host.2 ∧
        noted.world.Noted direct.world := by
  constructor
  · intro workflow hkeeps mediated direct notedBehind noted
    obtain ⟨hresult, hworlds⟩ := Run.agreesUpTo_complete_behind hanswers hkeeps _ _
      (World.mediated_behind hb hstate hblind)
    have hnotes := (Run.agreesUpTo_complete_behind hanswers.noting hkeeps _ _
      (World.mediated_behind (w := w.on (w.host, [])) hb hstate hblind)).2
    exact ⟨hresult, hworlds, congrArg Prod.snd hnotes.responder,
      (Run.exec_complete_noting h workflow w []).2⟩
  · intro turns hkeeps mediated direct notedBehind noted
    have hconcert := Traffic.inConcert_takeAll_behind hanswers hb hstate hblind hkeeps
    have hnotes := Traffic.inConcert_takeAll_behind (w := w.on (w.host, [])) hanswers.noting hb
      hstate hblind hkeeps
    exact ⟨hconcert.runs, hconcert.world, congrArg Prod.snd hnotes.world.responder,
      (Traffic.inConcert_takeAll_noting h w [] turns).world⟩

end Browsers

/-- A host that follows a script answers dialogs as long as nothing breaks it. -/
theorem HostScript.answersDialogs : HostScript.host.AnswersDialogs fun s => s.broken = [] := by
  have hbroken {r : Request} {s : HostScript} (hs : s.broken = []) :
      (reply r s).2.broken = [] ∧ (reply r s).1.RefusesAtMost := by
    unfold reply
    rw [hs]
    split
    · next hnone => cases hnone
    · split
      · refine ⟨hs, ?_⟩
        rintro f ⟨rfl⟩
        rfl
      · split
        · exact ⟨rfl, nofun⟩
        · exact ⟨hs, nofun⟩
  have hask {r : Request} {s : HostScript} (hs : s.broken = []) :
      (host.ask r s).2.1.broken = [] ∧
        ∀ f, (host.ask r s).1 = some (.failed f) → f.kind = .refused := by
    unfold host
    dsimp only
    split
    · exact ⟨hs, nofun⟩
    · exact ⟨(hbroken hs).1, fun f hf => (hbroken hs).2 f (Option.some.inj hf)⟩
  exact {
    ask := fun _ hs => (hask hs).1
    refuses := fun _ hs hf => (hask hs).2 _ hf
    settle := fun _ hs => (hbroken hs).1
    refusesLater := fun _ hs hf => (hbroken hs).2 _ hf
    abandon := fun _ hs => hs }

/-- A message that is refused, a question that is answered and one that is not: behind a browser the
same lines are put out, and the same three requests are received. -/
theorem Browser.mediates_dialogs_script :
    let asks : Workflow := ⟨"Go", [⟨"a1", .alert, some [("message", "Hello")]⟩,
      ⟨"a2", .promptAndShow, some [("message", "Name?")]⟩, ⟨"a3", .promptAndShow, none⟩,
      ⟨"a4", .showText, some [("text", "Bye")]⟩]⟩
    let w : World HostScript := {
      surface := .fresh, sequencer := .paced 0, shelf := ⟨.memory [], ⟨[], [], []⟩⟩
      host := { answers := [some "Eve"], refused := ["alert"] } }
    let b : Browser Unit := {
      settings := {}, label := "Go", faults := fun _ _ => none, hasPage := true, responder := () }
    let mediated := (Run.complete (Browser.host HostScript.host) (some asks)).exec (w.behind b)
    let noted := (Run.complete (Browser.host HostScript.host.noting) (some asks)).exec
      ((w.on (w.host, [])).behind b)
    mediated.1.isOk = true ∧ mediated.2.surface.output = (["You entered: Eve", "Bye"] : List Text) ∧
      noted.2.host.responder.2 =
        [.alert "Hello", .prompt "Name?", .prompt "Please enter a value"] := by
  intro asks w b mediated noted
  have hb : b.ShowsDialogs := ⟨rfl, fun _ _ _ _ _ => rfl, fun _ _ => rfl, fun _ => rfl⟩
  have hkeeps : ∀ a ∈ (Run.ofWorkflow (some asks)).remaining, a.KeepsSurface := by
    unfold Action.KeepsSurface
    decide
  obtain ⟨hruns, -⟩ := Browser.mediates_dialogs (w := w) HostScript.answersDialogs hb rfl nofun
  obtain ⟨hresult, hworlds, hnotes, -⟩ := hruns (some asks) hkeeps
  refine ⟨?_, ?_, ?_⟩
  · rw [hresult]
    decide +kernel
  · rw [hworlds.surface]
    decide +kernel
  · rw [hnotes]
    decide +kernel

end PushButton
