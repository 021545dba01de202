import PushButton.Proofs.Run.Output
import PushButton.Run.Streaming

/-!
# Likenesses of worlds

Worlds are akin when actions find the same storage and the same random numbers in them and change
them alike. Whatever an action does, it does the same in worlds that are akin, with the same result,
and leads to worlds that are akin again. A likeness is a kinship of worlds with the same surface and
the same observers, none of whom can tell the worlds apart.
-/

namespace PushButton

variable {σ τ α β : Type}

/-- An observer that does the same in worlds that are like each other. -/
def Listener.Overlooks (l : Listener) (R : World σ → World τ → Prop) : Prop :=
  ∀ field w w', R w w' → l.react field w.surface w.past = l.react field w'.surface w'.past

/-- The observer that prints the lines looks at nothing but what observers were told. -/
theorem Streaming.react_filter {p : Occurrence → Bool}
    (hp : ∀ l field lines images, p (.notified l field lines images) = true) (field : Field)
    (s : SurfaceState) (past : List Occurrence) :
    listener.react field s past = listener.react field s (past.filter p) := by
  have hprinted : printedLines past = printedLines (past.filter p) := by
    induction past with
    | nil => rfl
    | cons o past ih =>
      cases o with
      | notified l f lines images =>
        rw [List.filter_cons, if_pos (hp l f lines images)]
        cases f with
        | output =>
          change (if l = name then lines else printedLines past) =
            (if l = name then lines else printedLines (past.filter p))
          rw [ih]
        | images | scale | color | disabled => exact ih
      | logged | slept | asked | called | printed =>
        rw [List.filter_cons]
        split
        · exact ih
        · exact ih
  cases field with
  | output =>
    change Reaction.mk (((s.output.drop (min (printedLines past) s.output.length))).map shown) _ _ =
      Reaction.mk
        ((s.output.drop (min (printedLines (past.filter p)) s.output.length)).map shown) _ _
    rw [← hprinted]
  | images | scale | color | disabled => rfl

/-- Moments that count as the same: the same one, or two that are shown in worlds that are like each
other. -/
def World.SameMoment (R : World σ → World τ → Prop) (since since' : Nat) : Prop :=
  since = since' ∨ ∃ w w', R w w' ∧ since = w.clock ∧ since' = w'.clock

/-- A likeness of worlds: what actions look at is the same, the same changes keep the likeness, and
so do records about how long something took. -/
class World.Likeness (R : World σ → World τ → Prop) : Prop where
  /-- The surface is the same. -/
  surface {w : World σ} {w' : World τ} : R w w' → w.surface = w'.surface
  /-- The observers are the same. -/
  listeners {w : World σ} {w' : World τ} : R w w' → w.listeners = w'.listeners
  /-- The storage and the files are the same. -/
  shelf {w : World σ} {w' : World τ} : R w w' → w.shelf = w'.shelf
  /-- The random numbers to come are the same. -/
  draws {w : World σ} {w' : World τ} : R w w' → w.draws = w'.draws
  /-- No observer can tell the worlds apart. -/
  blind {w : World σ} {w' : World τ} : R w w' → ∀ l ∈ w.listeners, l.Overlooks R
  /-- The same happens. -/
  after {w : World σ} {w' : World τ} (os : List Occurrence) : R w w' → R (w.after os) (w'.after os)
  /-- The surface becomes the same. -/
  with_surface {w : World σ} {w' : World τ} (s : SurfaceState) : R w w' →
    R { w with surface := s } { w' with surface := s }
  /-- The same observers leave. -/
  with_listeners {w : World σ} {w' : World τ} {ls : List Listener} :
    ls.Sublist w.listeners → R w w' →
    R { w with listeners := ls } { w' with listeners := ls }
  /-- The storage becomes the same. -/
  with_shelf {w : World σ} {w' : World τ} (s : Shelf) : R w w' →
    R { w with shelf := s } { w' with shelf := s }
  /-- The random numbers to come become the same. -/
  with_draws {w : World σ} {w' : World τ} (ns : List Nat) : R w w' →
    R { w with draws := ns } { w' with draws := ns }
  /-- It is recorded how long something took since moments that count as the same. -/
  took {w : World σ} {w' : World τ} (label : Text) {since since' : Nat} :
    World.SameMoment R since since' → R w w' →
      R (w.after [.logged (Duration.record label "DEBUG" since w.clock)])
        (w'.after [.logged (Duration.record label "DEBUG" since' w'.clock)])

/-- A host that does the same in worlds that are like each other, and keeps the likeness. -/
class Host.Heeds (h : Host σ) (R : World σ → World σ → Prop) : Prop where
  /-- It is asked. -/
  ask {w w' : World σ} (r : Request) : R w w' → (h.ask r w.host).1 = (h.ask r w'.host).1 ∧
    R ({ w with host := (h.ask r w.host).2.1 }.after (h.ask r w.host).2.2)
      ({ w' with host := (h.ask r w'.host).2.1 }.after (h.ask r w'.host).2.2)
  /-- It settles a request. -/
  settle {w w' : World σ} (r : Request) : R w w' →
    (h.settle r w.host).1 = (h.settle r w'.host).1 ∧
    R ({ w with host := (h.settle r w.host).2.1 }.after (h.settle r w.host).2.2)
      ({ w' with host := (h.settle r w'.host).2.1 }.after (h.settle r w'.host).2.2)

namespace Act

/-! ## Steps that agree -/

/-- Two steps agree in worlds that are like each other: they have the same result and lead to worlds
that are like each other. -/
def AgreesUpTo (R : World σ → World τ → Prop) (act : Act σ α) (act' : Act τ α) : Prop :=
  ∀ w w', R w w' → (act.exec w).1 = (act'.exec w').1 ∧ R (act.exec w).2 (act'.exec w').2

section Relation

variable {R : World σ → World τ → Prop}

/-- Steps that agree have one result and two worlds that are like each other. -/
theorem AgreesUpTo.exists_exec {act : Act σ α} {act' : Act τ α} (h : AgreesUpTo R act act')
    {w : World σ} {w' : World τ} (hw : R w w') :
    ∃ res u u', act.exec w = (res, u) ∧ act'.exec w' = (res, u') ∧ R u u' := by
  obtain ⟨hresult, hworlds⟩ := h w w' hw
  exact ⟨(act.exec w).1, (act.exec w).2, (act'.exec w').2, rfl, Prod.ext hresult.symm rfl, hworlds⟩

/-- The same value. -/
theorem AgreesUpTo.pure (x : α) : AgreesUpTo R (pure x : Act σ α) (pure x) :=
  fun _ _ hw => ⟨rfl, hw⟩

/-- The same failure. -/
theorem AgreesUpTo.throw (f : Failure) : AgreesUpTo R (throw f : Act σ α) (throw f) :=
  fun _ _ hw => ⟨rfl, hw⟩

/-- Steps that agree, and then steps that agree for every value. -/
theorem AgreesUpTo.bind {act : Act σ α} {act' : Act τ α} {next : α → Act σ β} {next' : α → Act τ β}
    (hact : AgreesUpTo R act act') (hnext : ∀ x, AgreesUpTo R (next x) (next' x)) :
    AgreesUpTo R (act >>= next) (act' >>= next') := by
  intro w w' hw
  obtain ⟨res, u, u', hu, hu', hlike⟩ := hact.exists_exec hw
  rw [exec_bind, exec_bind, hu, hu']
  cases res with
  | ok x => exact hnext x u u' hlike
  | error f => exact ⟨rfl, hlike⟩

/-- Looking at worlds that are like each other, and then steps that agree in these. -/
theorem AgreesUpTo.get_bind {next : World σ → Act σ α} {next' : World τ → Act τ α}
    (hnext : ∀ w w', R w w' → ((next w).exec w).1 = ((next' w').exec w').1 ∧
      R ((next w).exec w).2 ((next' w').exec w').2) :
    AgreesUpTo R (get >>= next) (get >>= next') := hnext

/-- Changes that keep the likeness. -/
theorem AgreesUpTo.modify {g : World σ → World σ} {g' : World τ → World τ}
    (h : ∀ w w', R w w' → R (g w) (g' w')) :
    AgreesUpTo R (modify g : Act σ PUnit) (modify g') := fun w w' hw => ⟨rfl, h w w' hw⟩

/-- The same step for each item of a list. -/
theorem AgreesUpTo.forM {items : List α} {act : α → Act σ PUnit} {act' : α → Act τ PUnit}
    (hact : ∀ x ∈ items, AgreesUpTo R (act x) (act' x)) :
    AgreesUpTo R (items.forM act) (items.forM act') := by
  induction items with
  | nil => exact AgreesUpTo.pure _
  | cons x rest ih =>
    change AgreesUpTo R (act x >>= fun _ => rest.forM act) (act' x >>= fun _ => rest.forM act')
    exact (hact x (by simp)).bind fun _ => ih fun y hy => hact y (by simp [hy])

end Relation

/-! ## Telling observers -/

section Likeness

variable {R : World σ → World τ → Prop} [World.Likeness R]

/-- Telling an observer that cannot tell the worlds apart. -/
theorem agreesUpTo_tell (field : Field) {l : Listener} (hl : l.Overlooks R) :
    AgreesUpTo R (tell field l : Act σ Unit) (tell field l) := by
  have hoccur (o : Occurrence) : AgreesUpTo R (occur o : Act σ Unit) (occur o) :=
    fun _ _ hw => ⟨rfl, World.Likeness.after [o] hw⟩
  refine AgreesUpTo.get_bind fun w w' hw => ?_
  rw [hl field w w' hw, World.Likeness.surface hw]
  generalize l.react field w'.surface w'.past = reaction
  refine AgreesUpTo.bind (hoccur _) (fun _ => ?_) w w' hw
  refine (AgreesUpTo.forM fun t _ => hoccur _).bind fun _ => ?_
  refine (AgreesUpTo.modify ?_).bind fun _ => ?_
  · intro w w' hw
    rw [← World.Likeness.listeners hw]
    exact World.Likeness.with_listeners (without_sublist _ _) hw
  · cases reaction.failure with
    | none => exact AgreesUpTo.pure _
    | some f => exact AgreesUpTo.throw f

/-- Telling all observers. -/
theorem agreesUpTo_notify (field : Field) :
    AgreesUpTo R (notify field : Act σ Unit) (notify field) := by
  refine AgreesUpTo.get_bind fun w w' hw => ?_
  rw [← World.Likeness.listeners hw]
  exact AgreesUpTo.forM (fun l hl => agreesUpTo_tell field (World.Likeness.blind hw l hl)) w w' hw

/-- The surface is changed. -/
theorem agreesUpTo_modify_surface (f : SurfaceState → SurfaceState) :
    AgreesUpTo R (modify fun w => { w with surface := f w.surface } : Act σ PUnit)
      (modify fun w => { w with surface := f w.surface }) := by
  refine AgreesUpTo.modify fun w w' hw => ?_
  rw [World.Likeness.surface hw]
  exact World.Likeness.with_surface _ hw

/-- The surface is changed in one part. -/
theorem agreesUpTo_change (field : Field) (f : SurfaceState → SurfaceState) :
    AgreesUpTo R (change field f : Act σ Unit) (change field f) :=
  (agreesUpTo_modify_surface f).bind fun _ => agreesUpTo_notify field

/-- Lines and images are taken away. -/
theorem agreesUpTo_clear : AgreesUpTo R (clear : Act σ Unit) clear :=
  (agreesUpTo_change .output _).bind fun _ => agreesUpTo_notify .images

/-- The surface is made anew. -/
theorem agreesUpTo_remake : AgreesUpTo R (remake : Act σ Unit) remake :=
  (agreesUpTo_modify_surface SurfaceState.remade).bind fun _ =>
    AgreesUpTo.forM fun field _ => agreesUpTo_notify field

end Likeness

end Act

/-! ## Worlds that are akin -/

/-- A kinship of worlds: storage and random numbers are the same, the changes that actions make keep
the kinship, and so do records about how long something took. -/
class World.Kinship (R : World σ → World τ → Prop) : Prop where
  /-- The storage and the files are the same. -/
  shelf {w : World σ} {w' : World τ} : R w w' → w.shelf = w'.shelf
  /-- The random numbers to come are the same. -/
  draws {w : World σ} {w' : World τ} : R w w' → w.draws = w'.draws
  /-- The same records are made. -/
  recorded {w : World σ} {w' : World τ} (rs : List Record) : R w w' →
    R (w.after (rs.map .logged)) (w'.after (rs.map .logged))
  /-- The storage becomes the same. -/
  with_shelf {w : World σ} {w' : World τ} (s : Shelf) : R w w' →
    R { w with shelf := s } { w' with shelf := s }
  /-- The random numbers to come become the same. -/
  with_draws {w : World σ} {w' : World τ} (ns : List Nat) : R w w' →
    R { w with draws := ns } { w' with draws := ns }
  /-- It is recorded how long something took since moments that count as the same. -/
  took {w : World σ} {w' : World τ} (label : Text) {since since' : Nat} :
    World.SameMoment R since since' → R w w' →
      R (w.after [.logged (Duration.record label "DEBUG" since w.clock)])
        (w'.after [.logged (Duration.record label "DEBUG" since' w'.clock)])
  /-- A line is put out. -/
  putLine (line : Text) : Act.AgreesUpTo R (Act.putLine line) (Act.putLine line)
  /-- An image is put out. -/
  putImage (url : Text) : Act.AgreesUpTo R (Act.putImage url) (Act.putImage url)
  /-- The button grows. -/
  grow (step : Float) : Act.AgreesUpTo R (Act.grow step) (Act.grow step)
  /-- The button takes a colour. -/
  paint (color : Text) : Act.AgreesUpTo R (Act.paint color) (Act.paint color)
  /-- The button is disabled. -/
  disable : Act.AgreesUpTo R Act.disable Act.disable

/-- Worlds that are like each other are akin. -/
instance (R : World σ → World τ → Prop) [World.Likeness R] : World.Kinship R where
  shelf := World.Likeness.shelf
  draws := World.Likeness.draws
  recorded rs := World.Likeness.after (rs.map .logged)
  with_shelf := World.Likeness.with_shelf
  with_draws := World.Likeness.with_draws
  took := World.Likeness.took
  putLine _ := Act.agreesUpTo_change _ _
  putImage _ := Act.agreesUpTo_change _ _
  grow _ := Act.agreesUpTo_change _ _
  paint _ := Act.agreesUpTo_change _ _
  disable := Act.agreesUpTo_change _ _

/-- In worlds that are like each other, with the host in one state, the host does the same. -/
theorem Host.Heeds.of_same {h : Host σ} {R : World σ → World σ → Prop} [World.Likeness R]
    (hhost : ∀ {w w'}, R w w' → w.host = w'.host)
    (hwith : ∀ {w w'} (s : σ), R w w' → R { w with host := s } { w' with host := s }) :
    h.Heeds R where
  ask r hw := by
    rw [hhost hw]
    exact ⟨rfl, World.Likeness.after _ (hwith _ hw)⟩
  settle r hw := by
    rw [hhost hw]
    exact ⟨rfl, World.Likeness.after _ (hwith _ hw)⟩

/-- The same happens in worlds that are like each other. -/
theorem Act.agreesUpTo_occur {R : World σ → World τ → Prop} [World.Likeness R] (o : Occurrence) :
    AgreesUpTo R (occur o : Act σ Unit) (occur o) :=
  fun _ _ hw => ⟨rfl, World.Likeness.after [o] hw⟩

namespace Act

variable {R : World σ → World τ → Prop} [World.Kinship R]

/-- The same record is made. -/
theorem agreesUpTo_log (level : Level) (logger message : Text) (context : Context) :
    AgreesUpTo R (log level logger message context : Act σ Unit)
      (log level logger message context) :=
  fun _ _ hw => ⟨rfl, World.Kinship.recorded [_] hw⟩

/-- A random number is drawn. -/
theorem agreesUpTo_draw (bound : Nat) : AgreesUpTo R (draw bound : Act σ Nat) (draw bound) := by
  intro w w' hw
  change Except.ok (w.draws.headD 0 % bound) = Except.ok (w'.draws.headD 0 % bound) ∧
    R { w with draws := w.draws.drop 1 } { w' with draws := w'.draws.drop 1 }
  rw [World.Kinship.draws hw]
  exact ⟨rfl, World.Kinship.with_draws _ hw⟩

/-- A text is stored. -/
theorem agreesUpTo_store (key value : Text) :
    AgreesUpTo R (store key value : Act σ (Except StorageError Unit)) (store key value) := by
  intro w w' hw
  rw [exec_store, exec_store, World.Kinship.shelf hw]
  exact ⟨rfl, World.Kinship.recorded _ (World.Kinship.with_shelf _ hw)⟩

end Act

namespace Action

/-! ## Applying actions -/

variable {R : World σ → World τ → Prop} [World.Kinship R]

/-- A failure of the storage is recorded, or stops the action. -/
theorem agreesUpTo_whenUnusable (f : Failure) (wording : Text) :
    Act.AgreesUpTo R (whenUnusable f wording : Act σ Unit) (whenUnusable f wording) := by
  unfold whenUnusable
  split
  · exact Act.agreesUpTo_log _ _ _ _
  · exact Act.AgreesUpTo.throw f

/-- A text is stored and the line about it put out. -/
theorem agreesUpTo_saveItem (key value : Text) :
    Act.AgreesUpTo R (saveItem key value : Act σ Unit) (saveItem key value) := by
  unfold saveItem
  split
  · exact Act.AgreesUpTo.pure _
  · refine (Act.agreesUpTo_store key value).bind fun result => ?_
    cases result with
    | error e => exact agreesUpTo_whenUnusable _ _
    | ok u => exact World.Kinship.putLine _

/-- The line about a stored text is put out. -/
theorem agreesUpTo_showItem (key : Text) :
    Act.AgreesUpTo R (showItem key : Act σ Unit) (showItem key) := by
  unfold showItem
  split
  · exact Act.AgreesUpTo.pure _
  · refine Act.AgreesUpTo.get_bind fun w w' hw => ?_
    rw [World.Kinship.shelf hw]
    cases w'.shelf.get? key with
    | error e => exact agreesUpTo_whenUnusable _ _ w w' hw
    | ok value => exact World.Kinship.putLine _ w w' hw

/-- An action that makes no request is applied. -/
theorem agreesUpTo_perform (a : Action) :
    Act.AgreesUpTo R (perform a : Act σ Unit) (perform a) := by
  unfold perform
  cases a.kind with
  | showText => exact World.Kinship.putLine _
  | showImage =>
    dsimp only
    split
    · exact Act.AgreesUpTo.pure _
    · exact World.Kinship.putImage _
  | setLocalStorage => exact agreesUpTo_saveItem _ _
  | getLocalStorage => exact agreesUpTo_showItem _
  | increaseButtonSize => exact World.Kinship.grow _
  | changeButtonColor =>
    dsimp only
    split
    · exact (Act.agreesUpTo_draw _).bind fun n => World.Kinship.paint _
    · split
      · exact Act.AgreesUpTo.pure _
      · exact World.Kinship.paint _
  | disableButton => exact World.Kinship.disable
  | alert | promptAndShow | refreshPage | closeWindow => exact Act.AgreesUpTo.pure _

/-- A refusal is dealt with. -/
theorem agreesUpTo_whenRefused (f : Failure) (level : Level) (wording : Text) :
    Act.AgreesUpTo R (whenRefused f level wording : Act σ Unit) (whenRefused f level wording) := by
  unfold whenRefused
  split
  · exact Act.agreesUpTo_log _ _ _ _
  · exact Act.AgreesUpTo.throw f

/-- What a reply means. -/
theorem agreesUpTo_conclude (a : Action) (reply : Reply) :
    Act.AgreesUpTo R (conclude a reply : Act σ Effect) (conclude a reply) := by
  have hproceed {act : Act σ Unit} {act' : Act τ Unit} (hact : Act.AgreesUpTo R act act') :
      Act.AgreesUpTo R (do act; pure .proceed : Act σ Effect) (do act'; pure .proceed) :=
    hact.bind fun _ => Act.AgreesUpTo.pure _
  unfold conclude
  split
  · exact hproceed (agreesUpTo_whenRefused _ _ _)
  · exact hproceed (agreesUpTo_whenRefused _ _ _)
  · exact hproceed (World.Kinship.putLine _)
  · exact hproceed (agreesUpTo_whenRefused _ _ _)
  · exact Act.AgreesUpTo.pure _
  · exact (agreesUpTo_whenRefused _ _ _).bind fun _ => hproceed (World.Kinship.putLine _)
  · exact hproceed (World.Kinship.putLine _)
  · exact Act.AgreesUpTo.throw _
  · exact Act.AgreesUpTo.pure _

/-- Steps agree also when it is recorded how long they took. -/
theorem agreesUpTo_timed (a : Action) {since since' : Nat} {act : Act σ α} {act' : Act τ α}
    (hsince : World.SameMoment R since since') (hact : Act.AgreesUpTo R act act') :
    Act.AgreesUpTo R (a.timed since act) (a.timed since' act') := by
  intro w w' hw
  obtain ⟨hresult, hworlds⟩ := hact w w' hw
  rw [exec_timed, exec_timed]
  exact ⟨hresult, World.Kinship.took _ hsince hworlds⟩

/-- Two hosts meet the request of an action alike in worlds that are like each other: both reply at
once or none does, their replies mean the same for the action, and they keep the likeness. -/
structure IsMetAlike (h : Host σ) (h' : Host τ) (R : World σ → World τ → Prop) (a : Action) :
    Prop where
  /-- They are asked. -/
  ask {w : World σ} {w' : World τ} {r : Request} : a.request? = some r → R w w' →
    Option.Rel (fun reply reply' => Act.AgreesUpTo R (conclude a reply) (conclude a reply'))
      (h.ask r w.host).1 (h'.ask r w'.host).1 ∧
    R ({ w with host := (h.ask r w.host).2.1 }.after (h.ask r w.host).2.2)
      ({ w' with host := (h'.ask r w'.host).2.1 }.after (h'.ask r w'.host).2.2)
  /-- They settle the request. -/
  settle {w : World σ} {w' : World τ} {r : Request} : a.request? = some r → R w w' →
    Act.AgreesUpTo R (conclude a (h.settle r w.host).1) (conclude a (h'.settle r w'.host).1) ∧
    R ({ w with host := (h.settle r w.host).2.1 }.after (h.settle r w.host).2.2)
      ({ w' with host := (h'.settle r w'.host).2.1 }.after (h'.settle r w'.host).2.2)

/-- A host that does the same in worlds that are like each other meets every request alike. -/
theorem isMetAlike_of_heeds {R : World σ → World σ → Prop} [World.Kinship R] (h : Host σ)
    [h.Heeds R] (a : Action) : a.IsMetAlike h h R where
  ask {w w' r} _ hw := by
    obtain ⟨hreply, hworlds⟩ := Host.Heeds.ask (h := h) r hw
    refine ⟨?_, hworlds⟩
    rw [hreply]
    cases (h.ask r w'.host).1 with
    | none => exact .none
    | some reply => exact .some (agreesUpTo_conclude a reply)
  settle {w w' r} _ hw := by
    obtain ⟨hreply, hworlds⟩ := Host.Heeds.settle (h := h) r hw
    refine ⟨?_, hworlds⟩
    rw [hreply]
    exact agreesUpTo_conclude a _

/-- The request of an action is settled by hosts that meet it alike. -/
theorem IsMetAlike.agreesUpTo_settle {h : Host σ} {h' : Host τ} {a : Action}
    (hmet : a.IsMetAlike h h' R) {r : Request} (hr : a.request? = some r) {since since' : Nat}
    (hsince : World.SameMoment R since since') :
    Act.AgreesUpTo R (Action.settle h a r since) (Action.settle h' a r since') := by
  refine agreesUpTo_timed a hsince fun w w' hw => ?_
  obtain ⟨hmeaning, hworlds⟩ := hmet.settle hr hw
  exact hmeaning _ _ hworlds

/-- An action is begun behind the record about it. -/
def launch (h : Host σ) (mayWait : Bool) (a : Action) : Act σ Begun := do
  let since := (← get).clock
  match a.request? with
  | none => do
    timed a since (perform a)
    pure (.applied .proceed)
  | some r => do
    match ← Act.ask h r with
    | some reply => pure (.applied (← timed a since (conclude a reply)))
    | none =>
      if mayWait then pure (.waiting r since) else pure (.applied (← settle h a r since))

/-- Beginning an action makes a record about it first. -/
theorem start_eq_launch (h : Host σ) (mayWait : Bool) (a : Action) :
    a.start h mayWait = (do
      Act.log .debug logger ("Applying " ++ a.describe)
        [("action", .text a.kind.name), ("action_id", .text a.id)]
      a.launch h mayWait) := rfl

/-- An action is begun behind the record about it, with hosts that meet its request alike. It may
wait where worlds that are akin show the same time. -/
theorem IsMetAlike.agreesUpTo_launch {h : Host σ} {h' : Host τ} {a : Action}
    (hmet : a.IsMetAlike h h' R) (mayWait : Bool)
    (hclock : mayWait = true → ∀ w w', R w w' → w.clock = w'.clock) :
    Act.AgreesUpTo R (a.launch h mayWait) (a.launch h' mayWait) := by
  refine Act.AgreesUpTo.get_bind fun w w' hw => ?_
  have hsince : World.SameMoment R w.clock w'.clock := .inr ⟨w, w', hw, rfl, rfl⟩
  cases hr : a.request? with
  | none =>
    refine Act.AgreesUpTo.bind (agreesUpTo_timed a hsince (agreesUpTo_perform a)) (fun _ => ?_)
      w w' hw
    exact Act.AgreesUpTo.pure _
  | some r =>
    obtain ⟨hmeaning, hworlds⟩ := hmet.ask hr hw
    dsimp only
    rw [Act.exec_bind, Act.exec_bind, Act.exec_ask, Act.exec_ask]
    generalize (h.ask r w.host).1 = reply at hmeaning
    generalize (h'.ask r w'.host).1 = reply' at hmeaning
    cases hmeaning with
    | none =>
      cases mayWait with
      | false =>
        exact (hmet.agreesUpTo_settle hr hsince).bind (fun _ => Act.AgreesUpTo.pure _) _ _ hworlds
      | true =>
        have hsame := hclock rfl w w' hw
        exact ⟨congrArg (fun moment => Except.ok (Begun.waiting r moment)) hsame, hworlds⟩
    | some hmeaning =>
      exact (agreesUpTo_timed a hsince hmeaning).bind (fun _ => Act.AgreesUpTo.pure _) _ _ hworlds

/-- An action is begun, with hosts that meet its request alike. It may wait where worlds that are
akin show the same time. -/
theorem IsMetAlike.agreesUpTo_start {h : Host σ} {h' : Host τ} {a : Action}
    (hmet : a.IsMetAlike h h' R) (mayWait : Bool)
    (hclock : mayWait = true → ∀ w w', R w w' → w.clock = w'.clock) :
    Act.AgreesUpTo R (a.start h mayWait) (a.start h' mayWait) := by
  rw [start_eq_launch, start_eq_launch]
  exact (Act.agreesUpTo_log _ _ _ _).bind fun _ => hmet.agreesUpTo_launch mayWait hclock

/-! ## One host in worlds that are akin -/

section Heeds

variable {R : World σ → World σ → Prop} [World.Kinship R] (h : Host σ) [h.Heeds R]

/-- The host settles the request of an action. -/
theorem agreesUpTo_settle (a : Action) (r : Request) {since since' : Nat}
    (hsince : World.SameMoment R since since') :
    Act.AgreesUpTo R (settle h a r since) (settle h a r since') := by
  refine agreesUpTo_timed a hsince fun w w' hw => ?_
  obtain ⟨hreply, hworlds⟩ := Host.Heeds.settle (h := h) r hw
  rw [Act.exec_bind, Act.exec_bind, Act.exec_settle, Act.exec_settle, hreply]
  exact agreesUpTo_conclude a _ _ _ hworlds

/-- An action is begun behind the record about it. It may wait where worlds that are akin show the
same time. -/
theorem agreesUpTo_launch (mayWait : Bool) (a : Action)
    (hclock : mayWait = true → ∀ w w', R w w' → w.clock = w'.clock) :
    Act.AgreesUpTo R (a.launch h mayWait) (a.launch h mayWait) :=
  (isMetAlike_of_heeds h a).agreesUpTo_launch mayWait hclock

/-- An action is begun. It may wait where worlds that are akin show the same time. -/
theorem agreesUpTo_start (mayWait : Bool) (a : Action)
    (hclock : mayWait = true → ∀ w w', R w w' → w.clock = w'.clock) :
    Act.AgreesUpTo R (a.start h mayWait) (a.start h mayWait) :=
  (isMetAlike_of_heeds h a).agreesUpTo_start mayWait hclock

/-- An action is applied. -/
theorem agreesUpTo_apply (a : Action) : Act.AgreesUpTo R (a.apply h) (a.apply h) := by
  refine (agreesUpTo_start h false a nofun).bind fun b => ?_
  cases b with
  | applied e => exact Act.AgreesUpTo.pure e
  | waiting r since => exact agreesUpTo_settle h a r (.inl rfl)

end Heeds

end Action

end PushButton
