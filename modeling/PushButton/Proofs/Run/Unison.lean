import PushButton.Proofs.Run.Concert

/-!
# Worlds that go on in unison

Two worlds with different pasts go on in unison when everything that is looked at in them is the
same, their hosts behave alike, and no observer can tell the two pasts apart. How many runs are
active, and which action was taken up last, may differ. Whatever is done with a run in such worlds
has the same result in both, and the same happens.
-/

namespace PushButton

variable {σ α β : Type}

/-! ## Hosts that forget what was given up -/

/-- An occurrence beside the surface: a record, or a call to a page. -/
def Occurrence.isAside : Occurrence → Bool
  | .logged _ | .called _ => true
  | _ => false

/-- An observer that looks neither at the records of the log nor at the calls to a page. -/
def Listener.IgnoresAsides (l : Listener) : Prop :=
  ∀ field s past, l.react field s past = l.react field s (past.filter (!·.isAside))

/-- A host that behaves alike in states that are alike, and to which it makes no difference that a
request is given up: it gets into a state that is like the one in which it waited, and nothing
happens but records and calls to a page. -/
class Host.Forgets (h : Host σ) (E : σ → σ → Prop) : Prop where
  /-- A request has the same reply, and the same happens. -/
  ask {s s' : σ} (r : Request) : E s s' → (h.ask r s).1 = (h.ask r s').1 ∧
    (h.ask r s).2.2 = (h.ask r s').2.2 ∧ E (h.ask r s).2.1 (h.ask r s').2.1
  /-- A request is settled by the same reply, and the same happens. -/
  settle {s s' : σ} (r : Request) : E s s' → (h.settle r s).1 = (h.settle r s').1 ∧
    (h.settle r s).2.2 = (h.settle r s').2.2 ∧ E (h.settle r s).2.1 (h.settle r s').2.1
  /-- The same happens when a request is given up. -/
  abandon {s s' : σ} (r : Request) : E s s' → (h.abandon r s).2 = (h.abandon r s').2 ∧
    E (h.abandon r s).1 (h.abandon r s').1
  /-- A request that is given up leaves the host as it was. -/
  forgets {s : σ} (r : Request) : E s s → E s (h.abandon r s).1
  /-- No surface is told that a request is given up. -/
  aside (r : Request) (s : σ) : ∀ o ∈ (h.abandon r s).2, o.isAside = true

/-! ## Worlds in unison -/

/-- Since a moment with two different pasts, two worlds have gone on in unison. -/
structure World.InUnison (E : σ → σ → Prop) (past past' : List Occurrence) (w w' : World σ) :
    Prop where
  /-- The surface is the same. -/
  surface : w.surface = w'.surface
  /-- The observers are the same. -/
  listeners : w.listeners = w'.listeners
  /-- The storage and the files are the same. -/
  shelf : w.shelf = w'.shelf
  /-- The random numbers to come are the same. -/
  draws : w.draws = w'.draws
  /-- As much time has passed. -/
  clock : w.clock = w'.clock
  /-- As many run ids were given. -/
  runIds : w.runIds = w'.runIds
  /-- The hosts are in states that are alike. -/
  host : E w.host w'.host
  /-- The waiting times are the same. -/
  pacing : w.sequencer.pacing = w'.sequencer.pacing
  /-- As many runs have begun. -/
  started : w.sequencer.started = w'.sequencer.started
  /-- The same has happened since. -/
  news : ∃ os, w.past = os ++ past ∧ w'.past = os ++ past'
  /-- Records and calls to a page apart, the pasts are the same. -/
  pasts : past.filter (!·.isAside) = past'.filter (!·.isAside)
  /-- No observer looks at records or at calls to a page. -/
  blind : ∀ l ∈ w.listeners, l.IgnoresAsides

section Worlds

variable {E : σ → σ → Prop} {past past' : List Occurrence} {w w' : World σ}

namespace World.InUnison

/-- The same happens in both worlds. -/
theorem after (hw : w.InUnison E past past' w') (os : List Occurrence) :
    (w.after os).InUnison E past past' (w'.after os) := by
  obtain ⟨os', hpast, hpast'⟩ := hw.news
  refine { hw with news := ⟨os.reverse ++ os', ?_, ?_⟩ }
  · rw [List.append_assoc, ← hpast]
    rfl
  · rw [List.append_assoc, ← hpast']
    rfl

/-- The same has happened in both worlds between two moments. -/
theorem since {u u' : World σ} (hw : w.InUnison E past past' w') (hu : u.InUnison E past past' u') :
    u.since w.past.length = u'.since w'.past.length := by
  obtain ⟨os, hpast, hpast'⟩ := hw.news
  obtain ⟨os', hnews, hnews'⟩ := hu.news
  have hsince (p : List Occurrence) :
      (os' ++ p).take ((os' ++ p).length - (os ++ p).length) =
        os'.take (os'.length - os.length) := by
    rw [List.length_append, List.length_append, Nat.add_sub_add_right]
    exact List.take_append_of_le_length (Nat.sub_le _ _)
  unfold World.since
  rw [hpast, hpast', hnews, hnews', hsince, hsince]

/-- How many runs are active, and which action was taken up last, may change in both worlds. -/
theorem with_sequencer (hw : w.InUnison E past past' w') {s s' : Sequencer}
    (hpacing : s.pacing = s'.pacing) (hstarted : s.started = s'.started) :
    World.InUnison E past past' { w with sequencer := s } { w' with sequencer := s' } :=
  { hw with pacing := hpacing, started := hstarted }

/-- An active run ends in both worlds. -/
theorem released (hw : w.InUnison E past past' w') :
    w.released.InUnison E past past' w'.released := hw.with_sequencer hw.pacing hw.started

/-- The hosts get into states that are alike, and the same happens. -/
theorem with_host (hw : w.InUnison E past past' w') {s s' : σ} {os os' : List Occurrence}
    (hos : os = os') (hs : E s s') :
    ({ w with host := s }.after os).InUnison E past past' ({ w' with host := s' }.after os') := by
  subst hos
  have hhost : World.InUnison E past past' { w with host := s } { w' with host := s' } :=
    { hw with host := hs }
  exact hhost.after os

/-- Moments that are shown in worlds in unison are the same. -/
theorem eq_of_sameMoment {since since' : Nat}
    (h : World.SameMoment (World.InUnison E past past') since since') : since = since' := by
  obtain rfl | ⟨w, w', hw, rfl, rfl⟩ := h
  · rfl
  · exact hw.clock

end World.InUnison

/-- Worlds that go on in unison are like each other for all that actions look at. -/
instance : World.Likeness (World.InUnison E past past') where
  surface hw := hw.surface
  listeners hw := hw.listeners
  shelf hw := hw.shelf
  draws hw := hw.draws
  blind hw l hl field u u' hu := by
    obtain ⟨os, hpast, hpast'⟩ := hu.news
    rw [hw.blind l hl field u.surface, hw.blind l hl field u'.surface, hu.surface, hpast, hpast',
      List.filter_append, List.filter_append, hu.pasts]
  after os hw := hw.after os
  with_surface s hw := { hw with surface := rfl }
  with_listeners hls hw :=
    { hw with listeners := rfl, blind := fun l hl => hw.blind l (hls.subset hl) }
  with_shelf s hw := { hw with shelf := rfl }
  with_draws ns hw := { hw with draws := rfl }
  took label _ _ hsince hw := by
    rw [World.InUnison.eq_of_sameMoment hsince, hw.clock]
    exact hw.after _

/-- Runs go on alike in worlds that go on in unison. -/
instance : World.Concert (World.InUnison E past past') where
  clock hw := hw.clock
  runIds hw := hw.runIds
  pacing hw := hw.pacing
  elapsed ms hw := { hw with clock := congrArg (· + ms) hw.clock }
  begun hw :=
    { hw with runIds := congrArg (· + 1) hw.runIds, started := congrArg (· + 1) hw.started }
  reached _ hw := hw.with_sequencer hw.pacing hw.started
  released hw := hw.released

instance {h : Host σ} [h.Forgets E] : h.Heeds (World.InUnison E past past') where
  ask r hw := by
    obtain ⟨hreply, hos, hs⟩ := Host.Forgets.ask (h := h) r hw.host
    exact ⟨hreply, hw.with_host hos hs⟩
  settle r hw := by
    obtain ⟨hreply, hos, hs⟩ := Host.Forgets.settle (h := h) r hw.host
    exact ⟨hreply, hw.with_host hos hs⟩

end Worlds

/-! ## Runs in worlds that go on in unison -/

namespace Act

variable {E : σ → σ → Prop} {past past' : List Occurrence}

/-- A request is given up in both worlds. -/
theorem agreesInUnison_abandon (h : Host σ) [h.Forgets E] (r : Request) :
    AgreesUpTo (World.InUnison E past past') (abandon h r) (abandon h r) := by
  intro w w' hw
  obtain ⟨hos, hs⟩ := Host.Forgets.abandon (h := h) r hw.host
  rw [exec_abandon, exec_abandon]
  exact ⟨rfl, hw.with_host hos hs⟩

end Act

namespace Run

variable {E : σ → σ → Prop} {past past' : List Occurrence} {h : Host σ} [h.Forgets E] {p : Pauses}

/-- Something is done in two worlds with the same outcome, and they go on in unison. -/
def GoesInUnison (E : σ → σ → Prop) (past past' : List Occurrence) (f : StateM (World σ) α) :
    Prop :=
  ∀ w w', w.InUnison E past past' w' →
    (f.run w).1 = (f.run w').1 ∧ (f.run w).2.InUnison E past past' (f.run w').2

/-- The outcome is made into something else. -/
theorem GoesInUnison.map {f : StateM (World σ) α} (hf : GoesInUnison E past past' f) (g : α → β) :
    GoesInUnison E past past' (g <$> f) := GoesAlike.map hf g

/-- A run goes on to the next place where it may be left. -/
theorem goesInUnison_advance (h : Host σ) [h.Forgets E] (p : Pauses) (r : Run) :
    GoesInUnison E past past' (advance h p r) :=
  goesAlike_advance p (fun _ a _ => Action.isMetAlike_of_heeds h a)
    fun q _ a _ _ _ => Action.agreesUpTo_settle h a q (.inl rfl)

/-- A run is cancelled. -/
theorem goesInUnison_cancel (h : Host σ) [h.Forgets E] (r : Run) :
    GoesInUnison E past past' (cancel h r) :=
  goesAlike_cancel fun q _ _ => Act.agreesInUnison_abandon h q

/-- A run is closed. -/
theorem goesInUnison_close (r : Run) : GoesInUnison E past past' r.close := goesAlike_close r

/-- A workflow is run as a whole. -/
theorem agreesInUnison_complete (h : Host σ) [h.Forgets E] (workflow : Option Workflow) :
    Act.AgreesUpTo (World.InUnison E past past') (complete h workflow) (complete h workflow) :=
  agreesUpTo_complete_of_isMetAlike fun a _ => Action.isMetAlike_of_heeds h a

/-- The world of a run on a surface of its own, at its beginning. -/
def setApart (color : Text) (w : World σ) : World σ :=
  { w with
    surface := .fresh color, listeners := [], sequencer := { pacing := w.sequencer.pacing } }

/-- The surface that was there before comes back, with its observers and its runs. -/
def broughtBack (outside inside : World σ) : World σ :=
  { inside with
    surface := outside.surface, listeners := outside.listeners, sequencer := outside.sequencer }

/-- A run on a surface of its own is a run in a world of its own. -/
theorem exec_apart (h : Host σ) (color : Text) (workflow : Option Workflow) (w : World σ) :
    (apart h color workflow).exec w =
      (((complete h workflow).exec (setApart color w)).1.map fun _ =>
          ((complete h workflow).exec (setApart color w)).2.surface,
        broughtBack w ((complete h workflow).exec (setApart color w)).2) := by
  have hset (u v : World σ) : (set u : Act σ PUnit).exec v = (.ok ⟨⟩, u) := rfl
  unfold apart
  simp only [Act.exec_bind, Act.exec_get, hset, Act.exec_tryCatch]
  generalize hinside : ({ w with surface := _, listeners := _, sequencer := _ } : World σ) = inside
  obtain rfl : setApart color w = inside := hinside
  generalize (complete h workflow).exec (setApart color w) = out
  obtain ⟨res, u⟩ := out
  cases res with
  | error f => rfl
  | ok _ => rfl

/-- A workflow is run on a surface of its own. -/
theorem agreesInUnison_apart (h : Host σ) [h.Forgets E] (color : Text)
    (workflow : Option Workflow) : Act.AgreesUpTo (World.InUnison E past past')
      (apart h color workflow) (apart h color workflow) := by
  intro w w' hw
  have hapart : (setApart color w).InUnison E past past' (setApart color w') :=
    { hw with
      surface := rfl, listeners := rfl, started := rfl, pacing := hw.pacing, blind := nofun }
  obtain ⟨res, u, u', hu, hu', hlike⟩ := (agreesInUnison_complete h workflow).exists_exec hapart
  rw [exec_apart, exec_apart, hu, hu', hlike.surface]
  refine ⟨rfl, ?_⟩
  exact { hlike with
    surface := hw.surface, listeners := hw.listeners, pacing := hw.pacing, started := hw.started
    blind := hw.blind }

/-- A workflow, or else the stored one, is run on a surface of its own. -/
theorem agreesInUnison_standalone (h : Host σ) [h.Forgets E] (color key : Text)
    (given : Option Workflow) : Act.AgreesUpTo (World.InUnison E past past')
      (standalone h color key given) (standalone h color key given) := by
  have hsome (x : Workflow) : Act.AgreesUpTo (World.InUnison E past past')
      (some <$> apart h color (some x)) (some <$> apart h color (some x)) :=
    (agreesInUnison_apart h color (some x)).bind fun _ => Act.AgreesUpTo.pure _
  unfold standalone
  cases given with
  | some x => exact hsome x
  | none =>
    refine Act.AgreesUpTo.get_bind fun w w' hw => ?_
    rw [hw.shelf]
    cases w'.shelf.loadWorkflow key with
    | error f => exact Act.AgreesUpTo.throw f w w' hw
    | ok stored =>
      cases stored with
      | some x => exact hsome x w w' hw
      | none => exact (Act.agreesUpTo_occur _).bind (fun _ => Act.AgreesUpTo.pure _) w w' hw

end Run

end PushButton
