import PushButton.Run.World

/-!
# Running steps

A step leads from a world to a result and a world. The laws here compute both for the ways in which
steps are put together. A relation between worlds that holds from every world to itself, and that
can be followed twice, is respected by a whole step when its parts respect it.
-/

namespace PushButton

namespace Act

variable {σ α β : Type}

/-- The result of a step in a world, and the world behind it. -/
def exec (act : Act σ α) (w : World σ) : Except Failure α × World σ :=
  StateT.run (ExceptT.run act) w

/-- A value changes nothing. -/
@[simp] theorem exec_pure (x : α) (w : World σ) : exec (pure x) w = (.ok x, w) := rfl

/-- A failure changes nothing. -/
@[simp] theorem exec_throw (f : Failure) (w : World σ) :
    exec (throw f : Act σ α) w = (.error f, w) := rfl

/-- The second of two steps is taken in the world behind the first, unless the first fails. -/
@[simp] theorem exec_bind (act : Act σ α) (next : α → Act σ β) (w : World σ) :
    exec (act >>= next) w =
      match exec act w with
      | (.ok x, w') => exec (next x) w'
      | (.error f, w') => (.error f, w') := by
  unfold exec
  rw [ExceptT.run_bind, StateT.run_bind]
  obtain ⟨r, w'⟩ := StateT.run (ExceptT.run act) w
  cases r with
  | ok x => rfl
  | error f => rfl

/-- A failure is caught in the world that it leaves. -/
@[simp] theorem exec_tryCatch (act : Act σ α) (handle : Failure → Act σ α) (w : World σ) :
    exec (tryCatch act handle) w =
      match exec act w with
      | (.ok x, w') => (.ok x, w')
      | (.error f, w') => exec (handle f) w' := by
  unfold exec
  rw [ExceptT.run_tryCatch, StateT.run_bind]
  obtain ⟨r, w'⟩ := StateT.run (ExceptT.run act) w
  cases r with
  | ok x => rfl
  | error f => rfl

/-- The world is looked at. -/
@[simp] theorem exec_get (w : World σ) : exec get w = (.ok w, w) := rfl

/-- The world is changed. -/
@[simp] theorem exec_modify (g : World σ → World σ) (w : World σ) :
    exec (modify g) w = (.ok ⟨⟩, g w) := rfl

/-- Something happens. -/
@[simp] theorem exec_occur (o : Occurrence) (w : World σ) :
    exec (occur o) w = (.ok ⟨⟩, w.after [o]) := rfl

/-- A record is made. -/
@[simp] theorem exec_log (level : Level) (logger message : Text) (context : Context)
    (w : World σ) :
    exec (log level logger message context) w =
      (.ok ⟨⟩, w.after [.logged ⟨level, logger, message, context, none⟩]) := rfl

/-- A text is stored. -/
theorem exec_store (key value : Text) (w : World σ) :
    exec (store key value) w = (.ok (w.shelf.setLogged key value).1,
      { w with shelf := (w.shelf.setLogged key value).2.1 }.after
        ((w.shelf.setLogged key value).2.2.map .logged)) := rfl

/-- A text is stored, and a record about it may be made. -/
theorem exists_exec_store (key value : Text) (w : World σ) : ∃ os,
    exec (store key value) w = (.ok (w.shelf.set key value).1,
      { w with shelf := (w.shelf.set key value).2 }.after os) := by
  rw [exec_store]
  unfold Shelf.setLogged
  split
  · next hset => exact ⟨_, by rw [hset]⟩
  · next hset => exact ⟨_, by rw [hset]⟩

/-- The host is asked. -/
theorem exec_ask (h : Host σ) (r : Request) (w : World σ) :
    exec (ask h r) w = (.ok (h.ask r w.host).1,
      { w with host := (h.ask r w.host).2.1 }.after (h.ask r w.host).2.2) := rfl

/-- The host settles a request. -/
theorem exec_settle (h : Host σ) (r : Request) (w : World σ) :
    exec (settle h r) w = (.ok (h.settle r w.host).1,
      { w with host := (h.settle r w.host).2.1 }.after (h.settle r w.host).2.2) := rfl

/-- A request to the host is given up. -/
theorem exec_abandon (h : Host σ) (r : Request) (w : World σ) :
    exec (abandon h r) w = (.ok ⟨⟩,
      { w with host := (h.abandon r w.host).1 }.after (h.abandon r w.host).2) := rfl

/-! ## Relations that a step respects -/

/-- A relation between a world and a later one: nothing happening respects it, and one thing after
another does. -/
class Frame (R : World σ → World σ → Prop) : Prop where
  /-- A world and itself. -/
  refl (w : World σ) : R w w
  /-- A world, a later one, and one after that. -/
  trans {w w' w'' : World σ} : R w w' → R w' w'' → R w w''

/-- Something in a world stays as it is. -/
instance Frame.same {γ : Type} (f : World σ → γ) : Frame fun w w' => f w' = f w :=
  ⟨fun _ => rfl, fun h h' => h'.trans h⟩

/-- A step leads from every world to one that the relation allows, however it ends. -/
def Respects (R : World σ → World σ → Prop) (act : Act σ α) : Prop := ∀ w, R w (act.exec w).2

/-- Where a step leads. -/
theorem Respects.of_exec {R : World σ → World σ → Prop} {act : Act σ α} (hact : Respects R act)
    {w w' : World σ} {res : Except Failure α} (hexec : act.exec w = (res, w')) : R w w' := by
  have hw := hact w
  rw [hexec] at hw
  exact hw

/-- A relation that holds for the first of two steps in a world holds for both, if what the second
one does makes no difference. -/
theorem rel_bind_of {R S : World σ → World σ → Prop} {act : Act σ α} {next : α → Act σ β}
    {w : World σ} (hRS : ∀ {w w' w''}, R w w' → S w' w'' → R w w'') (hact : R w (act.exec w).2)
    (hnext : ∀ x, Respects S (next x)) : R w ((act >>= next).exec w).2 := by
  rw [exec_bind]
  split
  · next x w' hx =>
    rw [hx] at hact
    exact hRS hact (hnext x w')
  · next f w' hf =>
    rw [hf] at hact
    exact hact

/-- Two steps respect together what the first one respects, if what the second one does makes no
difference. -/
theorem Respects.bind_of {R S : World σ → World σ → Prop} {act : Act σ α} {next : α → Act σ β}
    (hRS : ∀ {w w' w''}, R w w' → S w' w'' → R w w'') (hact : Respects R act)
    (hnext : ∀ x, Respects S (next x)) : Respects R (act >>= next) :=
  fun w => rel_bind_of hRS (hact w) hnext

/-- A change respects a relation that it follows. -/
theorem Respects.modify {R : World σ → World σ → Prop} {g : World σ → World σ}
    (h : ∀ w, R w (g w)) : Respects R (modify g : Act σ PUnit) := h

/-- A step that cannot fail respects a relation that it follows. -/
theorem Respects.lift {R : World σ → World σ → Prop} {act : StateM (World σ) α}
    (h : ∀ w, R w (act.run w).2) : Respects R (liftM act : Act σ α) := h

section Frame

variable {R : World σ → World σ → Prop} [Frame R]

/-- A value respects every relation. -/
theorem Respects.pure (x : α) : Respects R (pure x) := fun w => Frame.refl w

/-- A failure respects every relation. -/
theorem Respects.throw (f : Failure) : Respects R (throw f : Act σ α) := fun w => Frame.refl w

/-- Looking at the world respects every relation. -/
theorem Respects.get : Respects R (get : Act σ (World σ)) := fun w => Frame.refl w

/-- Two steps respect a relation that both of them respect. -/
theorem Respects.bind {act : Act σ α} {next : α → Act σ β} (hact : Respects R act)
    (hnext : ∀ x, Respects R (next x)) : Respects R (act >>= next) :=
  hact.bind_of Frame.trans hnext

/-- A step that is caught respects a relation that it and what deals with its failures respect. -/
theorem Respects.tryCatch {act : Act σ α} {handle : Failure → Act σ α} (hact : Respects R act)
    (hhandle : ∀ f, Respects R (handle f)) : Respects R (tryCatch act handle) := by
  intro w
  have hfirst := hact w
  rw [exec_tryCatch]
  generalize act.exec w = out at hfirst
  obtain ⟨res, w'⟩ := out
  cases res with
  | ok x => exact hfirst
  | error f => exact Frame.trans hfirst (hhandle f w')

/-- A step for each item of a list respects a relation that every one of them respects. -/
theorem Respects.forM {items : List α} {act : α → Act σ PUnit}
    (hact : ∀ x ∈ items, Respects R (act x)) : Respects R (items.forM act) := by
  induction items with
  | nil => exact Respects.pure _
  | cons x rest ih =>
    change Respects R (act x >>= fun _ => rest.forM act)
    exact (hact x (by simp)).bind fun _ => ih fun y hy => hact y (by simp [hy])

end Frame

end Act

end PushButton
