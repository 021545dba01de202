import PushButton.Proofs.Host.Discretion
import PushButton.Proofs.Run.Announcements
import PushButton.Proofs.Run.Obstacles

/-!
# What an action amounts to

Whatever its kind, an action amounts to one change of the surface or to none, in the midst of steps
that concern neither the surface nor its observers. Which change it is follows from the storage, the
reply of the host and the random numbers to come. An action that makes a change fails only if an
observer does; one that makes none fails only if the host or the storage does in a way that is not
dealt with.
-/

namespace PushButton

variable {σ α β : Type}

/-! ## Steps aside -/

/-- The surface, its observers and the runs are as they were, and nobody was told about a part. -/
structure World.Aside (w w' : World σ) : Prop where
  /-- The surface is as it was. -/
  surface : w'.surface = w.surface
  /-- The observers are as they were. -/
  listeners : w'.listeners = w.listeners
  /-- The runs are as they were. -/
  sequencer : w'.sequencer = w.sequencer
  /-- What has happened meanwhile is silent. -/
  past : ∃ os, w'.past = os.reverse ++ w.past ∧ AreSilent os

namespace World

/-- Nothing happens that is not silent. -/
theorem Aside.of_past {w w' : World σ} {os : List Occurrence} (hos : AreSilent os)
    (hsurface : w'.surface = w.surface) (hlisteners : w'.listeners = w.listeners)
    (hsequencer : w'.sequencer = w.sequencer) (hpast : w'.past = os.reverse ++ w.past) :
    w.Aside w' := ⟨hsurface, hlisteners, hsequencer, os, hpast, hos⟩

instance : Act.Frame (Aside (σ := σ)) where
  refl _ := .of_past .nil rfl rfl rfl rfl
  trans {w w' w''} h h' := by
    obtain ⟨os, hpast, hos⟩ := h.past
    obtain ⟨os', hpast', hos'⟩ := h'.past
    refine .of_past (hos.append hos') (h'.surface.trans h.surface)
      (h'.listeners.trans h.listeners) (h'.sequencer.trans h.sequencer) ?_
    rw [hpast', hpast, List.reverse_append, List.append_assoc]

/-- A record stands aside. -/
theorem aside_logged (w : World σ) (r : Record) : w.Aside (w.after [.logged r]) :=
  .of_past (.logged r) rfl rfl rfl rfl

end World

namespace Act

/-- Storing a text stands aside. -/
theorem aside_store (key value : Text) :
    Respects World.Aside (store key value : Act σ (Except StorageError Unit)) := by
  intro w
  have hos : AreSilent ((w.shelf.setLogged key value).2.2.map .logged) := by
    intro o ho
    obtain ⟨r, -, rfl⟩ := List.mem_map.mp ho
    exact fun _ => rfl
  exact .of_past hos rfl rfl rfl rfl

/-- Asking a discreet host stands aside. -/
theorem aside_ask (h : Host σ) [hd : h.IsDiscreet] (r : Request) :
    Respects World.Aside (ask h r) :=
  fun w => .of_past (hd.ask r w.host) rfl rfl rfl rfl

/-- A discreet host that settles a request stands aside. -/
theorem aside_settle (h : Host σ) [hd : h.IsDiscreet] (r : Request) :
    Respects World.Aside (settle h r) :=
  fun w => .of_past (hd.settle r w.host) rfl rfl rfl rfl

end Act

/-! ## Steps that amount to a change -/

/-- A step amounts to a change of the surface, or to none. Where there is a change, the step has a
value unless an observer fails. Where there is none, it has the value unless there is a failure. -/
inductive World.Amounts (c : Option SurfaceChange) (f : Option Failure) (x : α) (w : World σ) :
    Except Failure α × World σ → Prop
  /-- The surface is left as it is. -/
  | nothing {w' : World σ} : c = none → w.Aside w' → Amounts c f x w (f.elim (.ok x) .error, w')
  /-- The surface is changed. -/
  | changed {c' : SurfaceChange} {res : Except Failure Unit} {w₁ w₂ w' : World σ} : c = some c' →
      f = none → w.Aside w₁ → c'.act.exec w₁ = (res, w₂) → w₂.Aside w' →
      Amounts c f x w (res.map fun _ => x, w')

namespace World.Amounts

variable {c : Option SurfaceChange} {f : Option Failure} {x : α} {w w₁ w' : World σ}
  {res : Except Failure α}

/-- A step that stands aside may go before. -/
theorem of_aside (h : w.Aside w₁) (h' : Amounts c f x w₁ (res, w')) :
    Amounts c f x w (res, w') := by
  cases h' with
  | nothing hc hafter => exact .nothing hc (Act.Frame.trans h hafter)
  | changed hc hf hbefore hact hafter =>
    exact .changed hc hf (Act.Frame.trans h hbefore) hact hafter

/-- A step that stands aside may go behind. -/
theorem then_aside (h : Amounts c f x w (res, w₁)) (h' : w₁.Aside w') :
    Amounts c f x w (res, w') := by
  cases h with
  | nothing hc hafter => exact .nothing hc (Act.Frame.trans hafter h')
  | changed hc hf hbefore hact hafter =>
    exact .changed hc hf hbefore hact (Act.Frame.trans hafter h')

/-- A value. -/
theorem pure (x : α) (w : World σ) : Amounts none none x w ((Pure.pure x : Act σ α).exec w) :=
  .nothing rfl (Act.Frame.refl w)

/-- A failure. -/
theorem throw (f : Failure) (x : α) (w : World σ) :
    Amounts none (some f) x w ((MonadExcept.throw f : Act σ α).exec w) :=
  .nothing rfl (Act.Frame.refl w)

/-- A change of the surface. -/
theorem act (c : SurfaceChange) (w : World σ) : Amounts (some c) none ⟨⟩ w (c.act.exec w) := by
  cases hact : c.act.exec w with
  | mk res w' =>
    have hsame : (res.map fun _ => (⟨⟩ : Unit)) = res := by cases res <;> rfl
    have hchanged : Amounts (some c) none (⟨⟩ : Unit) w (res.map fun _ => ⟨⟩, w') :=
      .changed rfl rfl (Act.Frame.refl w) hact (Act.Frame.refl w')
    rwa [hsame] at hchanged

/-- The value is replaced by another one. -/
theorem bind_pure {act : Act σ α} (h : Amounts c f x w (act.exec w)) (g : α → β) :
    Amounts c f (g x) w ((do let y ← act; Pure.pure (g y) : Act σ β).exec w) := by
  rw [Act.exec_bind]
  generalize act.exec w = out at h
  cases h with
  | nothing hc hafter =>
    cases f with
    | none => exact .nothing (f := none) hc hafter
    | some f => exact .nothing (f := some f) hc hafter
  | @changed _ res _ _ _ hc hf hbefore hact hafter =>
    have hchanged := changed (x := g x) hc hf hbefore hact hafter
    cases res with
    | ok _ => exact hchanged
    | error _ => exact hchanged

/-- A step that stands aside, and then one that amounts to a change. -/
theorem aside_bind {act : Act σ α} {next : α → Act σ β} {y : β} (h : act.exec w = (.ok x, w₁))
    (haside : w.Aside w₁) (hnext : Amounts c f y w₁ ((next x).exec w₁)) :
    Amounts c f y w ((act >>= next).exec w) := by
  rw [Act.exec_bind, h]
  exact of_aside haside hnext

/-- The record about how long an action took stands aside. -/
theorem timed {act : Act σ α} (h : Amounts c f x w (act.exec w)) (a : Action) (since : Nat) :
    Amounts c f x w ((a.timed since act).exec w) := by
  rw [Action.exec_timed]
  exact then_aside h (World.aside_logged _ _)

/-- What amounts to a change with one value does so with another one in its place. -/
theorem of_map {g : α → β} (hg : Function.Injective g)
    (h : Amounts c f (g x) w (res.map g, w')) : Amounts c f x w (res, w') := by
  generalize hout : (res.map g, w') = out at h
  cases h with
  | nothing hc hafter =>
    obtain ⟨hres, rfl⟩ := Prod.mk.inj hout
    have hsame : res = f.elim (.ok x) .error := by
      cases f with
      | none =>
        cases res with
        | ok y => rw [hg (Except.ok.inj hres)]; rfl
        | error e => cases hres
      | some f =>
        cases res with
        | ok y => cases hres
        | error e => rw [Except.error.inj hres]; rfl
    rw [hsame]
    exact .nothing hc hafter
  | @changed _ res' _ _ _ hc hf hbefore hact hafter =>
    obtain ⟨hres, rfl⟩ := Prod.mk.inj hout
    have hsame : res = res'.map fun _ => x := by
      cases res' with
      | ok _ =>
        cases res with
        | ok y => rw [hg (Except.ok.inj hres)]; rfl
        | error e => cases hres
      | error _ =>
        cases res with
        | ok y => cases hres
        | error e => rw [Except.error.inj hres]; rfl
    rw [hsame]
    exact .changed hc hf hbefore hact hafter

/-- A step that amounts to a change has its value where it has one. -/
theorem eq_of_ok {y : α} {out : Except Failure α × World σ} (h : Amounts c f x w out)
    (hy : out.1 = .ok y) : y = x := by
  cases h with
  | nothing _ _ =>
    cases f with
    | none => exact (Except.ok.inj hy).symm
    | some f => cases hy
  | @changed _ res =>
    cases res with
    | ok _ => exact (Except.ok.inj hy).symm
    | error f => cases hy

/-- A step that amounts to no change has its value unless there is a failure. -/
theorem result {out : Except Failure α × World σ} (h : Amounts none f x w out) :
    out.1 = f.elim (.ok x) .error := by
  cases h with
  | nothing _ _ => rfl
  | changed hc => cases hc

end World.Amounts

/-! ## Actions -/

namespace Action

/-- The change of the surface that an action makes, given the storage, the reply to its request once
there is one, and the random numbers to come. -/
def change? (a : Action) (s : Shelf) (reply : Option Reply) (draws : List Nat) :
    Option SurfaceChange :=
  match a.kind with
  | .showImage => a.images.head?.map .putImage
  | .increaseButtonSize => some (.grow SurfaceState.growth)
  | .changeButtonColor =>
    if a.param "color" = "random" then some (.paint (randomColor (draws.headD 0 % colorCount)))
    else if (a.param "color").isEmpty then none
    else some (.paint (a.param "color"))
  | .disableButton => some .disable
  | _ => (a.lines s reply).head?.map .putLine

/-- The failure of a storage that is not dealt with. -/
def unusable? {α : Type} : Except StorageError α → Option Failure
  | .error e => if e.failure.kind.isInvalid || e.failure.kind.isFile then none else some e.failure
  | .ok _ => none

/-- The failure that stops an action, unless an observer does, given the storage and the reply to
its request once there is one. -/
def fault? (a : Action) (s : Shelf) (reply : Option Reply) : Option Failure :=
  match a.kind, reply with
  | .setLocalStorage, _ =>
    if a.stores then unusable? (s.set (a.param "key") (a.param "value")).1 else none
  | .getLocalStorage, _ => if a.looksUp then unusable? (s.get? (a.param "key")) else none
  | _, some (.failed f) => if f.kind = .refused then none else some f
  | _, _ => none

variable {a : Action} {w : World σ}

/-- A failure of the storage is recorded or stops the action. -/
theorem amounts_whenUnusable (e : StorageError) (wording : Text) (w : World σ) :
    World.Amounts none (unusable? (.error e : Except StorageError Unit)) ⟨⟩ w
      ((whenUnusable e.failure wording).exec w) := by
  unfold whenUnusable unusable?
  dsimp only
  split
  · exact .nothing (f := none) rfl (w.aside_logged _)
  · exact .throw e.failure _ w

/-- A text is stored, and the line about it put out. -/
theorem amounts_saveItem (key value : Text) (w : World σ) :
    World.Amounts ((savedLines key value w.shelf).head?.map .putLine)
      (if key.isEmpty || value.isEmpty then none else unusable? (w.shelf.set key value).1) ⟨⟩ w
      ((saveItem key value).exec w) := by
  unfold saveItem savedLines
  by_cases hempty : (key.isEmpty || value.isEmpty) = true
  · simp only [if_pos hempty]
    exact .pure _ w
  simp only [if_neg hempty]
  refine .aside_bind (Act.exec_store key value w) (Act.aside_store key value w) ?_
  have hresult : (w.shelf.setLogged key value).1 = (w.shelf.set key value).1 := by
    unfold Shelf.setLogged
    split
    · next hset => rw [hset]
    · next hset => rw [hset]
  rw [hresult]
  cases (w.shelf.set key value).1 with
  | error e => exact amounts_whenUnusable e _ _
  | ok u => exact .act (.putLine _) _

/-- A text is looked up, and the line about it put out. -/
theorem amounts_showItem (key : Text) (w : World σ) :
    World.Amounts ((shownLines key w.shelf).head?.map .putLine)
      (if key.isEmpty then none else unusable? (w.shelf.get? key)) ⟨⟩ w
      ((showItem key).exec w) := by
  unfold showItem shownLines
  by_cases hempty : key.isEmpty = true
  · simp only [if_pos hempty]
    exact .pure _ w
  simp only [if_neg hempty]
  refine .aside_bind (Act.exec_get w) (Act.Frame.refl w) ?_
  cases w.shelf.get? key with
  | error e => exact amounts_whenUnusable e _ w
  | ok value => exact .act (.putLine _) w

/-- An action that makes no request amounts to its change. -/
theorem amounts_perform (a : Action) (w : World σ) :
    World.Amounts (a.change? w.shelf none w.draws) (a.fault? w.shelf none) ⟨⟩ w
      ((perform a).exec w) := by
  have hunless (b : Bool) (f : Option Failure) :
      (if (!b) = true then f else none) = if b = true then none else f := by cases b <;> rfl
  unfold perform change? fault? lines images
  cases hkind : a.kind with
  | showText => exact .act (.putLine _) w
  | showImage =>
    dsimp only
    split
    · exact .pure _ w
    · exact .act (.putImage _) w
  | setLocalStorage =>
    have hsave := amounts_saveItem (a.param "key") (a.param "value") w
    unfold stores
    simp only [hkind, decide_true, Bool.true_and, hunless]
    exact hsave
  | getLocalStorage =>
    have hshow := amounts_showItem (a.param "key") w
    unfold looksUp
    simp only [hkind, decide_true, Bool.true_and, hunless]
    exact hshow
  | increaseButtonSize => exact .act (.grow _) w
  | changeButtonColor =>
    dsimp only
    split
    · refine .aside_bind (x := w.draws.headD 0 % colorCount) rfl ?_ (.act (.paint _) _)
      exact .of_past .nil rfl rfl rfl rfl
    · split
      · exact .pure _ w
      · exact .act (.paint _) w
  | disableButton => exact .act .disable w
  | alert | promptAndShow | refreshPage | closeWindow => exact .pure _ w

/-- A refusal is recorded, and any other failure stops the action. -/
theorem amounts_whenRefused (f : Failure) (level : Level) (wording : Text) (w : World σ) :
    World.Amounts none (if f.kind = .refused then none else some f) ⟨⟩ w
      ((whenRefused f level wording).exec w) := by
  unfold whenRefused
  split
  · exact .nothing (f := none) rfl (w.aside_logged _)
  · exact .throw f _ w

/-- What a reply to the request of an action means amounts to its change. -/
theorem amounts_conclude {r : Request} (hr : a.request? = some r) (reply : Reply) (s : Shelf)
    (draws : List Nat) (w : World σ) :
    World.Amounts (a.change? s (some reply) draws) (a.fault? s (some reply))
      (a.effect (some reply)) w ((conclude a reply).exec w) := by
  have hrefused (f : Failure) (level : Level) (wording : Text) :
      World.Amounts none (if f.kind = .refused then none else some f) Effect.proceed w
        ((do whenRefused f level wording; pure .proceed : Act σ Effect).exec w) :=
    (amounts_whenRefused f level wording w).bind_pure fun _ => Effect.proceed
  have hline (line : Text) (w : World σ) : World.Amounts (some (.putLine line)) none
      Effect.proceed w ((do Act.putLine line; pure .proceed : Act σ Effect).exec w) :=
    (World.Amounts.act (.putLine line) w).bind_pure fun _ => Effect.proceed
  unfold request? at hr
  unfold conclude change? fault? effect lines
  cases hkind : a.kind with
  | alert =>
    cases reply with
    | failed f => exact hrefused f _ _
    | done | answer t => exact .pure _ w
  | promptAndShow =>
    cases reply with
    | failed f => exact hrefused f _ _
    | done => exact .pure _ w
    | answer t =>
      cases t with
      | none => exact .pure _ w
      | some t => exact hline _ w
  | refreshPage =>
    cases reply with
    | failed f => exact hrefused f _ _
    | done | answer t => exact .pure _ w
  | closeWindow =>
    cases reply with
    | failed f =>
      dsimp only
      unfold whenRefused
      by_cases hf : f.kind = .refused
      · simp only [if_pos hf]
        exact .aside_bind (Act.exec_log _ _ _ _ w) (w.aside_logged _) (hline _ _)
      · simp only [if_neg hf]
        exact .throw f _ w
    | done | answer t => exact hline _ w
  | _ =>
    rw [hkind] at hr
    cases hr

/-- A request that is settled amounts to the change that the reply means. -/
theorem amounts_settle (h : Host σ) [h.IsDiscreet] {r : Request} (hr : a.request? = some r)
    (since : Nat) (s : Shelf) (draws : List Nat) (w : World σ) :
    World.Amounts (a.change? s (some (h.settle r w.host).1) draws)
      (a.fault? s (some (h.settle r w.host).1)) (a.effect (some (h.settle r w.host).1)) w
      ((settle h a r since).exec w) := by
  refine World.Amounts.timed ?_ a since
  refine .aside_bind (Act.exec_settle h r w) (Act.aside_settle h r w) ?_
  exact amounts_conclude hr _ s draws _

/-- An action that makes no request lets the run go on. -/
theorem effect_none (a : Action) : a.effect none = .proceed := by
  unfold effect
  split <;> first | rfl | contradiction

/-- An action that is begun without waiting amounts to its change. -/
theorem amounts_start (h : Host σ) [h.IsDiscreet] (a : Action) (w : World σ) :
    World.Amounts (a.change? w.shelf (a.reply? h false w.host) w.draws)
      (a.fault? w.shelf (a.reply? h false w.host))
      (Begun.applied (a.effect (a.reply? h false w.host))) w ((a.start h false).exec w) := by
  unfold start reply?
  refine .aside_bind (Act.exec_log _ _ _ _ w) (w.aside_logged _) ?_
  generalize hw₁ : w.after [_] = w₁
  obtain ⟨hshelf, hhost, hdraws⟩ : w₁.shelf = w.shelf ∧ w₁.host = w.host ∧ w₁.draws = w.draws :=
    hw₁ ▸ ⟨rfl, rfl, rfl⟩
  rw [← hshelf, ← hhost, ← hdraws]
  refine .aside_bind (Act.exec_get w₁) (Act.Frame.refl w₁) ?_
  cases hr : a.request? with
  | none =>
    dsimp only
    rw [a.effect_none]
    exact ((amounts_perform a w₁).timed a _).bind_pure fun _ => Begun.applied .proceed
  | some r =>
    have haside := Act.aside_ask h r w₁
    rw [Act.exec_ask] at haside
    refine .aside_bind (Act.exec_ask h r w₁) haside ?_
    dsimp only
    generalize h.ask r w₁.host = out
    obtain ⟨reply, host, os⟩ := out
    cases reply with
    | some reply =>
      exact ((amounts_conclude hr reply w₁.shelf w₁.draws _).timed a _).bind_pure Begun.applied
    | none =>
      simp only [Bool.false_eq_true, if_false]
      have hsettle := amounts_settle h hr w₁.clock w₁.shelf w₁.draws
        (({ w₁ with host := host } : World σ).after os)
      exact hsettle.bind_pure Begun.applied

/-- **What an action amounts to.** In front of a discreet host, an action amounts to its change of
the surface or to none, has the effect of the reply, and fails only with its own fault or because an
observer does. -/
theorem amounts_apply (h : Host σ) [h.IsDiscreet] (a : Action) (w : World σ) :
    World.Amounts (a.change? w.shelf (a.reply? h false w.host) w.draws)
      (a.fault? w.shelf (a.reply? h false w.host)) (a.effect (a.reply? h false w.host)) w
      ((a.apply h).exec w) := by
  obtain ⟨res, w', hstart, happly⟩ := a.exec_apply h w
  have hstarted := amounts_start h a w
  rw [hstart] at hstarted
  rw [happly]
  exact .of_map (fun _ _ he => Begun.applied.inj he) hstarted

end Action

end PushButton
