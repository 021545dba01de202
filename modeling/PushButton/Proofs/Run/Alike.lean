import PushButton.Proofs.Run.Likeness

/-!
# Worlds that differ in their records only

Two worlds are alike when they agree on everything but the records of the log and the numbers that
are kept about runs. As long as no observer looks at records, applying an action leads from worlds
that are alike to worlds that are alike, with the same result. So the records that a run makes about
its actions have no influence on them.
-/

namespace PushButton

variable {σ α β : Type}

/-- An observer that does not look at the records of the log. -/
def Listener.IgnoresRecords (l : Listener) : Prop :=
  ∀ field s past, l.react field s past = l.react field s (past.filter (·.record?.isNone))

/-- No observer in a world looks at the records of the log. -/
def World.IsBlind (w : World σ) : Prop := ∀ l ∈ w.listeners, l.IgnoresRecords

/-- Two worlds differ in nothing but the records of the log and the numbers about runs, and no
observer looks at records. -/
structure World.Alike (w w' : World σ) : Prop where
  /-- The surface is the same. -/
  surface : w.surface = w'.surface
  /-- The observers are the same. -/
  listeners : w.listeners = w'.listeners
  /-- The storage and the files are the same. -/
  shelf : w.shelf = w'.shelf
  /-- The random numbers to come are the same. -/
  draws : w.draws = w'.draws
  /-- As much time has passed. -/
  clock : w.clock = w'.clock
  /-- The host is in the same state. -/
  host : w.host = w'.host
  /-- The waiting times are the same. -/
  pacing : w.sequencer.pacing = w'.sequencer.pacing
  /-- The same has happened, records apart. -/
  past : w.past.filter (·.record?.isNone) = w'.past.filter (·.record?.isNone)
  /-- No observer looks at records. -/
  blind : w.IsBlind

namespace World.Alike

variable {w w' w'' : World σ}

/-- A world is like itself. -/
theorem refl (h : w.IsBlind) : w.Alike w := ⟨rfl, rfl, rfl, rfl, rfl, rfl, rfl, rfl, h⟩

/-- Worlds are like each other. -/
theorem symm (h : w.Alike w') : w'.Alike w :=
  ⟨h.surface.symm, h.listeners.symm, h.shelf.symm, h.draws.symm, h.clock.symm, h.host.symm,
    h.pacing.symm, h.past.symm, fun l hl => h.blind l (h.listeners ▸ hl)⟩

/-- Worlds that are like the same world are alike. -/
theorem trans (h : w.Alike w') (h' : w'.Alike w'') : w.Alike w'' :=
  ⟨h.surface.trans h'.surface, h.listeners.trans h'.listeners, h.shelf.trans h'.shelf,
    h.draws.trans h'.draws, h.clock.trans h'.clock, h.host.trans h'.host, h.pacing.trans h'.pacing,
    h.past.trans h'.past, h.blind⟩

/-- Worlds stay alike when the same happens. -/
theorem after (h : w.Alike w') (os : List Occurrence) : (w.after os).Alike (w'.after os) := by
  refine { h with past := ?_ }
  change (os.reverse ++ w.past).filter _ = (os.reverse ++ w'.past).filter _
  rw [List.filter_append, List.filter_append, h.past]

/-- Worlds stay alike when the storage becomes the same. -/
theorem with_shelf (h : w.Alike w') (s : Shelf) :
    World.Alike { w with shelf := s } { w' with shelf := s } := { h with shelf := rfl }

/-- Worlds stay alike when the host gets into the same state. -/
theorem with_host (h : w.Alike w') (s : σ) :
    World.Alike { w with host := s } { w' with host := s } := { h with host := rfl }

/-- A world stays like another one when what is known about its runs changes, with the same waiting
time. -/
theorem with_sequencer (h : w.Alike w') {s : Sequencer} (hs : s.pacing = w.sequencer.pacing) :
    World.Alike { w with sequencer := s } w' := { h with pacing := hs.trans h.pacing }

/-- A world stays like another one when a record is made. -/
theorem after_record (h : w.Alike w') (r : Record) : (w.after [.logged r]).Alike w' :=
  { h with past := h.past }

end World.Alike

/-- Worlds that are alike are like each other for all that actions look at. -/
instance : World.Likeness (World.Alike (σ := σ)) where
  surface hw := hw.surface
  listeners hw := hw.listeners
  shelf hw := hw.shelf
  draws hw := hw.draws
  blind hw l hl field u u' hu := by
    rw [hw.blind l hl field u.surface, hw.blind l hl field u'.surface, hu.surface, hu.past]
  after os hw := hw.after os
  with_surface s hw := { hw with surface := rfl }
  with_listeners hls hw :=
    { hw with listeners := rfl, blind := fun l hl => hw.blind l (hls.subset hl) }
  with_shelf s hw := hw.with_shelf s
  with_draws ns hw := { hw with draws := rfl }
  took _ _ _ _ hw := (((hw.after_record _).symm).after_record _).symm

instance (h : Host σ) : h.Heeds World.Alike := .of_same (·.host) fun s hw => hw.with_host s

namespace Act

/-! ## Steps that agree -/

/-- Two steps agree in two worlds: they have the same result and lead to worlds that are alike. -/
def AgreesAt (act act' : Act σ α) (w w' : World σ) : Prop :=
  (act.exec w).1 = (act'.exec w').1 ∧ (act.exec w).2.Alike (act'.exec w').2

/-- Two steps agree in worlds that are alike. -/
def Agrees (act act' : Act σ α) : Prop := ∀ w w', World.Alike w w' → AgreesAt act act' w w'

/-- Steps that agree have one result and two worlds that are alike. -/
theorem AgreesAt.exists_exec {act act' : Act σ α} {w w' : World σ} (h : AgreesAt act act' w w') :
    ∃ res u u', act.exec w = (res, u) ∧ act'.exec w' = (res, u') ∧ u.Alike u' := by
  obtain ⟨hresult, hworlds⟩ := h
  exact ⟨(act.exec w).1, (act.exec w).2, (act'.exec w').2, rfl, Prod.ext hresult.symm rfl, hworlds⟩

/-- The same value. -/
theorem Agrees.pure (x : α) : Agrees (pure x : Act σ α) (pure x) := AgreesUpTo.pure x

/-- Steps that agree, and then steps that agree for every value. -/
theorem Agrees.bind {act act' : Act σ α} {next next' : α → Act σ β} (hact : Agrees act act')
    (hnext : ∀ x, Agrees (next x) (next' x)) : Agrees (act >>= next) (act' >>= next') :=
  AgreesUpTo.bind hact hnext

/-- A record may be left out. -/
theorem agrees_log (level : Level) (logger message : Text) (context : Context) :
    Agrees (log level logger message context : Act σ Unit) (Pure.pure ()) :=
  fun _ _ hw => ⟨rfl, hw.after_record _⟩

/-- What agrees with doing nothing may be left out in front of steps that agree. -/
theorem Agrees.skip {act : Act σ Unit} {next : Unit → Act σ α} {act' : Act σ α}
    (hact : Agrees act (Pure.pure ())) (hnext : Agrees (next ()) act') :
    Agrees (act >>= next) act' := by
  have hboth : Agrees (act >>= next) (Pure.pure () >>= fun _ => act') :=
    hact.bind fun _ => hnext
  rwa [pure_bind] at hboth

/-- Lines and images are taken away. -/
theorem agrees_clear : Agrees (clear : Act σ Unit) clear := agreesUpTo_clear

/-- The surface is made anew. -/
theorem agrees_remake : Agrees (remake : Act σ Unit) remake := agreesUpTo_remake

/-- Milliseconds pass. -/
theorem agrees_sleep (ms : Nat) : Agrees (sleep ms : Act σ Unit) (sleep ms) := by
  unfold sleep
  split
  · refine Agrees.bind (AgreesUpTo.modify ?_) fun _ => agreesUpTo_occur _
    exact fun w w' hw => { hw with clock := congrArg (· + ms) hw.clock }
  · exact Agrees.pure _

end Act

/-- An action is applied. -/
theorem Action.agrees_apply (h : Host σ) (a : Action) : Act.Agrees (a.apply h) (a.apply h) :=
  agreesUpTo_apply h a

end PushButton
