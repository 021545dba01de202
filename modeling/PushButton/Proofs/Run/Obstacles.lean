import PushButton.Proofs.Run.Lifecycle
import PushButton.Proofs.Run.Replay
import PushButton.Proofs.Storage.Shallow

/-!
# What does not stop a run

A host may refuse whatever it is asked, and a storage may be broken in many ways: an action deals
with both. So when no observer fails and no data are nested too deeply, every action is applied, and
a run applies its actions up to the first one that has reloaded the surface. Where an action meets a
refusal or a broken storage, the surface stays as it is.
-/

namespace PushButton

variable {σ α β : Type}

/-! ## Steps that succeed -/

/-- A step succeeds in a world, with a value and a world that fit together. -/
def Act.Succeeds (act : Act σ α) (w : World σ) (P : α → World σ → Prop) : Prop :=
  ∃ x w', act.exec w = (.ok x, w') ∧ P x w'

namespace Act

variable {act : Act σ α} {P : α → World σ → Prop}

/-- A step that succeeds, and then another one that does. -/
theorem Succeeds.bind {w : World σ} {next : α → Act σ β} {R : β → World σ → Prop}
    (hact : act.Succeeds w P) (hnext : ∀ x w', P x w' → (next x).Succeeds w' R) :
    (act >>= next).Succeeds w R := by
  obtain ⟨x, w', hx, hP⟩ := hact
  obtain ⟨y, w'', hy, hR⟩ := hnext x w' hP
  refine ⟨y, w'', ?_, hR⟩
  rw [exec_bind, hx]
  exact hy

/-- A value succeeds. -/
theorem Succeeds.pure {w : World σ} {x : α} (h : P x w) : (pure x : Act σ α).Succeeds w P :=
  ⟨x, w, rfl, h⟩

/-- A step that succeeds in a way succeeds in a weaker one. -/
theorem Succeeds.mono {w : World σ} {R : α → World σ → Prop} (h : act.Succeeds w P)
    (hPR : ∀ x w', P x w' → R x w') : act.Succeeds w R := by
  obtain ⟨x, w', hx, hP⟩ := h
  exact ⟨x, w', hx, hPR x w' hP⟩

end Act

/-- The host and the storage are as they were, and no observer has come. -/
structure World.Spares (w w' : World σ) : Prop where
  /-- The host is in the same state. -/
  host : w'.host = w.host
  /-- The storage and the files are the same. -/
  shelf : w'.shelf = w.shelf
  /-- No observer has come. -/
  listeners : w'.listeners.Sublist w.listeners

instance : Act.Frame (World.Spares (σ := σ)) where
  refl _ := ⟨rfl, rfl, .refl _⟩
  trans h h' := ⟨h'.host.trans h.host, h'.shelf.trans h.shelf, h'.listeners.trans h.listeners⟩

/-- A quiet step spares the host and the storage. -/
theorem World.Quiet.spares {w w' : World σ} (h : w.Quiet w') : w.Spares w' := by
  refine ⟨?_, ?_, h.listeners⟩
  · rw [← h.rest]
  · rw [← h.rest]

/-- A quiet step leaves the surface as it is. -/
theorem World.Quiet.surface {w w' : World σ} (h : w.Quiet w') : w'.surface = w.surface := by
  rw [← h.rest]

namespace Act

/-- Telling the observers succeeds in a calm world. -/
theorem succeeds_notify (field : Field) {w : World σ} (hcalm : w.IsCalm) :
    (notify field).Succeeds w fun _ w' => w.Spares w' := by
  obtain ⟨w', hnotify⟩ := exists_exec_notify field hcalm
  have hquiet := quiet_notify field w
  rw [hnotify] at hquiet
  exact ⟨_, w', hnotify, hquiet.spares⟩

/-- A part of the surface is changed in a calm world. -/
theorem succeeds_change (field : Field) (f : SurfaceState → SurfaceState) {w : World σ}
    (hcalm : w.IsCalm) : (change field f).Succeeds w fun _ w' => w.Spares w' := by
  have hchanged : World.IsCalm { w with surface := f w.surface } := hcalm
  obtain ⟨x, w', hnotify, hspares⟩ := succeeds_notify field hchanged
  exact ⟨x, w', hnotify, hspares.host, hspares.shelf, hspares.listeners⟩

/-- The surface is made anew in a calm world. -/
theorem succeeds_remake {w : World σ} (hcalm : w.IsCalm) :
    remake.Succeeds w fun _ w' => w.Spares w' := by
  have hall (fields : List Field) (w : World σ) (hcalm : w.IsCalm) :
      (fields.forM notify : Act σ PUnit).Succeeds w fun _ w' => w.Spares w' := by
    induction fields generalizing w with
    | nil => exact .pure (Frame.refl w)
    | cons field rest ih =>
      refine (succeeds_notify field hcalm).bind fun _ w' hspares => ?_
      exact (ih w' (hcalm.of_sublist hspares.listeners)).mono fun _ _ => Frame.trans hspares
  have hremade : World.IsCalm { w with surface := w.surface.remade } := hcalm
  obtain ⟨x, w', hnotify, hspares⟩ := hall Field.all _ hremade
  exact ⟨x, w', hnotify, hspares.host, hspares.shelf, hspares.listeners⟩

end Act

/-! ## Hosts that refuse at most -/

/-- In the states of some kind a host meets every request or refuses it, and it stays in such
states. -/
structure Host.Obliges (h : Host σ) (Q : σ → Prop) : Prop where
  /-- It stays in such states when it is asked. -/
  ask (r : Request) {s : σ} : Q s → Q (h.ask r s).2.1
  /-- When it is asked, it refuses at most. -/
  refuses (r : Request) {s : σ} {f : Failure} : Q s → (h.ask r s).1 = some (.failed f) →
    f.kind = .refused
  /-- It stays in such states when it settles a request. -/
  settle (r : Request) {s : σ} : Q s → Q (h.settle r s).2.1
  /-- When it settles a request, it refuses at most. -/
  refusesLater (r : Request) {s : σ} {f : Failure} : Q s → (h.settle r s).1 = .failed f →
    f.kind = .refused

/-- A host that follows a script without a request that breaks it. -/
theorem HostScript.obliges : HostScript.host.Obliges fun s => s.broken = [] := by
  have hreply (r : Request) {s : HostScript} (hs : s.broken = []) :
      (HostScript.reply r s).2.broken = [] ∧
        ∀ f, (HostScript.reply r s).1 = .failed f → f.kind = .refused := by
    unfold HostScript.reply
    rw [hs, if_neg (by simp)]
    split
    · refine ⟨hs, fun f hf => ?_⟩
      cases hf
      rfl
    · split
      · exact ⟨rfl, nofun⟩
      · exact ⟨hs, nofun⟩
  constructor
  · intro r s hs
    dsimp only [HostScript.host]
    split
    · exact hs
    · exact (hreply r hs).1
  · intro r s f hs hf
    dsimp only [HostScript.host] at hf
    split at hf
    · cases hf
    · exact (hreply r hs).2 f (Option.some.inj hf)
  · intro r s hs
    exact (hreply r hs).1
  · intro r s f hs hf
    exact (hreply r hs).2 f hf

namespace Action

/-! ## What an action comes to -/

/-- The state of the host after it has replied to the request of an action. -/
def hostAfter (h : Host σ) (a : Action) (s : σ) : σ :=
  match a.request? with
  | none => s
  | some r =>
    match h.ask r s with
    | (some _, s, _) => s
    | (none, s, _) => (h.settle r s).2.1

/-- What an action means for the run: it ends the run if it has reloaded the surface. -/
def effect (a : Action) (reply : Option Reply) : Effect :=
  match a.kind, reply with
  | .refreshPage, some (.failed _) => .proceed
  | .refreshPage, some _ => .reload
  | _, _ => .proceed

/-- An action puts a text into the storage. -/
def stores (a : Action) : Bool :=
  a.kind = .setLocalStorage && !((a.param "key").isEmpty || (a.param "value").isEmpty)

/-- An action looks a text up in the storage. -/
def looksUp (a : Action) : Bool := a.kind = .getLocalStorage && !(a.param "key").isEmpty

/-- The storage behind an action. -/
def shelfAfter (a : Action) (s : Shelf) : Shelf :=
  if a.stores then (s.set (a.param "key") (a.param "value")).2 else s

/-- Nothing comes of an action: the host refuses to show a message, to ask or to reload the surface,
a question is not answered, or the storage cannot be written or read. -/
def IsThwarted (a : Action) (s : Shelf) (reply : Option Reply) : Prop :=
  match a.kind, reply with
  | .alert, some (.failed _) | .promptAndShow, some (.failed _)
  | .promptAndShow, some (.answer none) | .refreshPage, some (.failed _) => True
  | .setLocalStorage, _ => ∃ e, (s.set (a.param "key") (a.param "value")).1 = .error e
  | .getLocalStorage, _ => ∃ e, s.get? (a.param "key") = .error e
  | _, _ => False

/-- An action was applied: its effect is that of the reply to its request, nothing but this request
has changed the state of the host, nothing but what it stores has changed the storage, and the
surface is as it was if nothing has come of the action. -/
structure IsApplied (h : Host σ) (a : Action) (w : World σ) (e : Effect) (w' : World σ) : Prop where
  /-- The effect is that of the reply. -/
  effect : e = a.effect (a.reply? h false w.host)
  /-- The host has replied to the request. -/
  host : w'.host = a.hostAfter h w.host
  /-- The text was stored. -/
  shelf : w'.shelf = a.shelfAfter w.shelf
  /-- No observer has come. -/
  listeners : w'.listeners.Sublist w.listeners
  /-- Where nothing has come of the action, the surface is as it was. -/
  surface : a.IsThwarted w.shelf (a.reply? h false w.host) → w'.surface = w.surface

/-! ## Applying an action -/

variable {h : Host σ} {a : Action} {w : World σ}

/-- A refusal is recorded. -/
theorem succeeds_whenRefused {f : Failure} (hrefused : f.kind = .refused) (level : Level)
    (wording : Text) (w : World σ) :
    (whenRefused f level wording).Succeeds w fun _ w' => w.Quiet w' := by
  unfold whenRefused
  rw [if_pos hrefused]
  exact ⟨_, _, rfl, Act.quiet_log _ _ _ _ w⟩

/-- A failure of the storage is recorded, unless the data are nested too deeply. -/
theorem succeeds_whenUnusable {e : StorageError} (he : ¬ e.IsTooDeep) (wording : Text)
    (w : World σ) : (whenUnusable e.failure wording).Succeeds w fun _ w' => w.Quiet w' := by
  unfold whenUnusable
  rw [if_pos (StorageError.isInvalid_or_isFile he)]
  exact ⟨_, _, rfl, Act.quiet_log _ _ _ _ w⟩

/-- What the reply to the request of an action means is done, if the host has refused at most. -/
theorem succeeds_conclude {r : Request} (hr : a.request? = some r) {reply : Reply}
    (hreply : ∀ f, reply = .failed f → f.kind = .refused) (s : Shelf) (hcalm : w.IsCalm) :
    (conclude a reply).Succeeds w fun e w' => e = a.effect (some reply) ∧ w.Spares w' ∧
      (a.IsThwarted s (some reply) → w'.surface = w.surface) := by
  have hrefused {f : Failure} (hf : f.kind = .refused) (level : Level) (wording : Text) :
      (do whenRefused f level wording; pure .proceed : Act σ Effect).Succeeds w fun e w' =>
        e = .proceed ∧ w.Spares w' ∧ w'.surface = w.surface := by
    refine (succeeds_whenRefused hf level wording w).bind fun _ w' hquiet => ?_
    exact .pure ⟨rfl, hquiet.spares, hquiet.surface⟩
  have hline (line : Text) {w : World σ} (hcalm : w.IsCalm) :
      (do Act.putLine line; pure .proceed : Act σ Effect).Succeeds w fun e w' =>
        e = .proceed ∧ w.Spares w' := by
    refine (Act.succeeds_change _ _ hcalm).bind fun _ w' hspares => ?_
    exact .pure ⟨rfl, hspares⟩
  unfold request? at hr
  unfold conclude effect IsThwarted
  cases hkind : a.kind with
  | alert =>
    cases reply with
    | failed f =>
      refine (hrefused (hreply f rfl) _ _).mono fun e w' h => ?_
      exact ⟨h.1, h.2.1, fun _ => h.2.2⟩
    | done | answer t => exact .pure ⟨rfl, Act.Frame.refl w, fun _ => rfl⟩
  | promptAndShow =>
    cases reply with
    | failed f =>
      refine (hrefused (hreply f rfl) _ _).mono fun e w' h => ?_
      exact ⟨h.1, h.2.1, fun _ => h.2.2⟩
    | done => exact .pure ⟨rfl, Act.Frame.refl w, fun _ => rfl⟩
    | answer t =>
      cases t with
      | none => exact .pure ⟨rfl, Act.Frame.refl w, fun _ => rfl⟩
      | some t => exact (hline _ hcalm).mono fun e w' h => ⟨h.1, h.2, nofun⟩
  | refreshPage =>
    cases reply with
    | failed f =>
      refine (hrefused (hreply f rfl) _ _).mono fun e w' h => ?_
      exact ⟨h.1, h.2.1, fun _ => h.2.2⟩
    | done | answer t => exact .pure ⟨rfl, Act.Frame.refl w, nofun⟩
  | closeWindow =>
    cases reply with
    | failed f =>
      refine (succeeds_whenRefused (hreply f rfl) _ _ w).bind fun _ w' hquiet => ?_
      refine (hline _ (hcalm.of_sublist hquiet.listeners)).mono fun e w'' h => ?_
      exact ⟨h.1, Act.Frame.trans hquiet.spares h.2, nofun⟩
    | done | answer t => exact (hline _ hcalm).mono fun e w' h => ⟨h.1, h.2, nofun⟩
  | _ =>
    rw [hkind] at hr
    cases hr

/-- A text is stored, unless what is kept is nested too deeply. -/
theorem succeeds_saveItem (key value : Text) (hcalm : w.IsCalm)
    (hdeep : (key.isEmpty || value.isEmpty) = false → ¬ w.shelf.IsTooDeep) :
    (saveItem key value).Succeeds w fun _ w' => w'.host = w.host ∧
      w'.shelf = (if key.isEmpty || value.isEmpty then w.shelf else (w.shelf.set key value).2) ∧
      w'.listeners.Sublist w.listeners ∧
      ((∃ e, (w.shelf.set key value).1 = .error e) → w'.surface = w.surface) := by
  unfold saveItem
  by_cases hempty : (key.isEmpty || value.isEmpty) = true
  · rw [if_pos hempty, if_pos hempty]
    exact .pure ⟨rfl, rfl, .refl _, fun _ => rfl⟩
  rw [if_neg hempty, if_neg hempty]
  have hshallow := hdeep (by simpa using hempty)
  have hstore : (Act.store key value).Succeeds w fun result w' =>
      result = (w.shelf.set key value).1 ∧ w'.host = w.host ∧ w'.surface = w.surface ∧
        w'.shelf = (w.shelf.set key value).2 ∧ w'.listeners = w.listeners := by
    obtain ⟨os, hexec⟩ := Act.exists_exec_store key value w
    exact ⟨_, _, hexec, rfl, rfl, rfl, rfl, rfl⟩
  refine hstore.bind ?_
  rintro result w' ⟨rfl, hhost, hsurface, hshelf, hlisteners⟩
  cases hset : (w.shelf.set key value).1 with
  | error e =>
    have he : ¬ e.IsTooDeep := fun he => hshallow ⟨e, Shelf.items_of_isTooDeep_set hset he, he⟩
    refine (succeeds_whenUnusable he _ w').mono fun _ w'' hquiet => ?_
    refine ⟨hquiet.spares.host.trans hhost, hquiet.spares.shelf.trans hshelf, ?_, fun _ => ?_⟩
    · exact hlisteners ▸ hquiet.listeners
    · exact hquiet.surface.trans hsurface
  | ok u =>
    have hcalm' : w'.IsCalm := fun l hl => hcalm l (hlisteners ▸ hl)
    refine (Act.succeeds_change _ _ hcalm').mono fun _ w'' hspares => ?_
    refine ⟨hspares.host.trans hhost, hspares.shelf.trans hshelf, ?_, nofun⟩
    exact hlisteners ▸ hspares.listeners

/-- A stored text is shown, unless what is kept is nested too deeply. -/
theorem succeeds_showItem (key : Text) (hcalm : w.IsCalm)
    (hdeep : key.isEmpty = false → ¬ w.shelf.IsTooDeep) :
    (showItem key).Succeeds w fun _ w' => w.Spares w' ∧
      ((∃ e, w.shelf.get? key = .error e) → w'.surface = w.surface) := by
  unfold showItem
  by_cases hempty : key.isEmpty = true
  · rw [if_pos hempty]
    exact .pure ⟨Act.Frame.refl w, fun _ => rfl⟩
  rw [if_neg hempty]
  have hshallow := hdeep (by simpa using hempty)
  have hlook : (get : Act σ (World σ)).Succeeds w fun x w' => x = w ∧ w' = w :=
    ⟨w, w, rfl, rfl, rfl⟩
  refine hlook.bind ?_
  rintro _ x ⟨rfl, rfl⟩
  cases hget : x.shelf.get? key with
  | error e =>
    have he : ¬ e.IsTooDeep := by
      intro he
      cases hitems : x.shelf.items with
      | error e' =>
        rw [Shelf.get?, hitems] at hget
        cases hget
        exact hshallow ⟨e, hitems, he⟩
      | ok items =>
        rw [Shelf.get?, hitems] at hget
        cases hget
    refine (succeeds_whenUnusable he _ x).mono fun _ w'' hquiet => ?_
    exact ⟨hquiet.spares, fun _ => hquiet.surface⟩
  | ok value =>
    refine (Act.succeeds_change _ _ hcalm).mono fun _ w'' hspares => ⟨hspares, ?_⟩
    rintro ⟨e, he⟩
    cases he

/-- An action that makes no request is applied, unless it needs data that are nested too deeply. -/
theorem succeeds_perform (hr : a.request? = none) (hcalm : w.IsCalm)
    (hdeep : (a.stores || a.looksUp) = true → ¬ w.shelf.IsTooDeep) :
    (perform a).Succeeds w fun _ w' => w'.host = w.host ∧ w'.shelf = a.shelfAfter w.shelf ∧
      w'.listeners.Sublist w.listeners ∧ (a.IsThwarted w.shelf none → w'.surface = w.surface) := by
  have hspares {act : Act σ Unit} (hact : act.Succeeds w fun _ w' => w.Spares w') :
      act.Succeeds w fun _ w' => w'.host = w.host ∧ w'.shelf = w.shelf ∧
        w'.listeners.Sublist w.listeners ∧ (False → w'.surface = w.surface) :=
    hact.mono fun _ w' h => ⟨h.host, h.shelf, h.listeners, nofun⟩
  have hnothing : (pure () : Act σ Unit).Succeeds w fun _ w' => w.Spares w' :=
    .pure (Act.Frame.refl w)
  unfold request? at hr
  unfold perform shelfAfter IsThwarted
  unfold stores looksUp at hdeep
  unfold stores
  cases hkind : a.kind with
  | showText => exact hspares (Act.succeeds_change _ _ hcalm)
  | showImage =>
    dsimp only
    split
    · exact hspares hnothing
    · exact hspares (Act.succeeds_change _ _ hcalm)
  | setLocalStorage =>
    have hstored := succeeds_saveItem (a.param "key") (a.param "value") hcalm fun hempty =>
      hdeep (by simp [hkind, hempty])
    refine hstored.mono fun _ w' h => ⟨h.1, h.2.1.trans ?_, h.2.2⟩
    cases (a.param "key").isEmpty || (a.param "value").isEmpty <;> rfl
  | getLocalStorage =>
    have hshown := succeeds_showItem (a.param "key") hcalm fun hempty =>
      hdeep (by simp [hkind, hempty])
    exact hshown.mono fun _ w' h => ⟨h.1.host, h.1.shelf, h.1.listeners, h.2⟩
  | increaseButtonSize => exact hspares (Act.succeeds_change _ _ hcalm)
  | changeButtonColor =>
    dsimp only
    split
    · have hdraw : (Act.draw colorCount).Succeeds w fun _ w' => w.Spares w' :=
        ⟨_, _, rfl, rfl, rfl, .refl _⟩
      refine hspares (hdraw.bind fun n w' hw' => ?_)
      refine (Act.succeeds_change _ _ (hcalm.of_sublist hw'.listeners)).mono fun _ w'' hw'' => ?_
      exact Act.Frame.trans hw' hw''
    · split
      · exact hspares hnothing
      · exact hspares (Act.succeeds_change _ _ hcalm)
  | disableButton => exact hspares (Act.succeeds_change _ _ hcalm)
  | alert | promptAndShow | refreshPage | closeWindow =>
    rw [hkind] at hr
    cases hr

/-- A step that succeeds also does so when it is timed, if what happens makes no difference. -/
theorem succeeds_timed {act : Act σ α} {P : α → World σ → Prop}
    (hafter : ∀ x w' os, P x w' → P x (w'.after os)) (hact : act.Succeeds w P) (since : Nat) :
    (a.timed since act).Succeeds w P := by
  obtain ⟨x, w', hexec, hP⟩ := hact
  have htimed := exec_timed a since act w
  rw [hexec] at htimed
  exact ⟨x, _, htimed, hafter x w' _ hP⟩

/-- An action that makes a request leaves the storage as it is. -/
theorem shelfAfter_of_request {r : Request} (hr : a.request? = some r) (s : Shelf) :
    a.shelfAfter s = s := by
  have hkind : a.kind ≠ .setLocalStorage := by
    intro hkind
    unfold request? at hr
    rw [hkind] at hr
    cases hr
  unfold shelfAfter stores
  rw [if_neg (by simp [hkind])]

/-- What happens besides makes no difference to an action that was applied. -/
theorem IsApplied.after {e : Effect} {w' : World σ} (happlied : a.IsApplied h w e w')
    (os : List Occurrence) : a.IsApplied h w e (w'.after os) :=
  ⟨happlied.effect, happlied.host, happlied.shelf, happlied.listeners, happlied.surface⟩

/-- A host that refuses at most refuses the request of an action at most. -/
theorem refused_of_reply {Q : σ → Prop} (hhost : h.Obliges Q) {s : σ} (hs : Q s) {f : Failure}
    (hf : a.reply? h false s = some (.failed f)) : f.kind = .refused := by
  unfold reply? at hf
  cases hr : a.request? with
  | none =>
    rw [hr] at hf
    cases hf
  | some r =>
    have hasked := hhost.ask r hs
    have hrefused := hhost.refuses (f := f) r hs
    rw [hr] at hf
    dsimp only at hf
    generalize h.ask r s = out at hf hasked hrefused
    obtain ⟨reply, s', _⟩ := out
    cases reply with
    | some reply => exact hrefused hf
    | none => exact hhost.refusesLater r hasked (Option.some.inj hf)

/-- A host that refuses at most goes on to do so behind an action. -/
theorem obliged_hostAfter {Q : σ → Prop} (hhost : h.Obliges Q) {s : σ} (hs : Q s) :
    Q (a.hostAfter h s) := by
  unfold hostAfter
  cases a.request? with
  | none => exact hs
  | some r =>
    have hasked := hhost.ask r hs
    dsimp only
    generalize h.ask r s = out at hasked
    obtain ⟨reply, s', _⟩ := out
    cases reply with
    | some reply => exact hasked
    | none => exact hhost.settle r hasked

/-- An action that makes no request is applied at once. -/
theorem succeeds_timed_perform (hr : a.request? = none) (hcalm : w.IsCalm)
    (hdeep : (a.stores || a.looksUp) = true → ¬ w.shelf.IsTooDeep) (since : Nat) :
    (a.timed since (perform a)).Succeeds w fun _ w' => a.IsApplied h w .proceed w' := by
  have hreply : a.reply? h false w.host = none := by
    unfold reply?
    rw [hr]
  have hhostAfter : a.hostAfter h w.host = w.host := by
    unfold hostAfter
    rw [hr]
  have heffect : a.effect none = .proceed := by
    unfold effect
    split <;> first | rfl | contradiction
  refine succeeds_timed (fun _ _ os happlied => happlied.after os) ?_ since
  refine (succeeds_perform hr hcalm hdeep).mono ?_
  rintro _ w' ⟨hhost, hshelf, hlisteners, hsurface⟩
  refine ⟨?_, ?_, hshelf, hlisteners, ?_⟩
  · rw [hreply, heffect]
  · rw [hhostAfter, hhost]
  · rw [hreply]
    exact hsurface

/-- An action is applied once there is a reply, if nothing but the host has changed since. -/
theorem succeeds_conclude_reply {Q : σ → Prop} (hhost : h.Obliges Q) (hw : Q w.host)
    (hcalm : w.IsCalm) {r : Request} (hr : a.request? = some r) {reply : Reply}
    (hreply : a.reply? h false w.host = some reply) {w₁ : World σ}
    (hhostAfter : w₁.host = a.hostAfter h w.host) (hsurface : w₁.surface = w.surface)
    (hshelf : w₁.shelf = w.shelf) (hlisteners : w₁.listeners = w.listeners) :
    (conclude a reply).Succeeds w₁ fun e w' => a.IsApplied h w e w' := by
  have hcalm₁ : w₁.IsCalm := fun l hl => hcalm l (hlisteners ▸ hl)
  have hrefused (f : Failure) (hf : reply = .failed f) : f.kind = .refused :=
    refused_of_reply hhost hw (hf ▸ hreply)
  refine (succeeds_conclude hr hrefused w.shelf hcalm₁).mono ?_
  rintro e w' ⟨he, hspares, hthwarted⟩
  refine ⟨?_, hspares.host.trans hhostAfter, ?_, ?_, ?_⟩
  · rw [hreply, he]
  · rw [shelfAfter_of_request hr, hspares.shelf, hshelf]
  · exact hlisteners ▸ hspares.listeners
  · rw [hreply, ← hsurface]
    exact hthwarted

/-- An action that is begun in a calm world is applied at once if it may not wait. -/
theorem succeeds_start {Q : σ → Prop} (hhost : h.Obliges Q) (a : Action) (hcalm : w.IsCalm)
    (hw : Q w.host) (hdeep : (a.stores || a.looksUp) = true → ¬ w.shelf.IsTooDeep) :
    (a.start h false).Succeeds w fun b w' => ∃ e, b = .applied e ∧ a.IsApplied h w e w' := by
  have hafter (e : Effect) (w' : World σ) (os : List Occurrence) :
      a.IsApplied h w e w' → a.IsApplied h w e (w'.after os) := (·.after os)
  have hlog (o : Occurrence) : (Act.occur o).Succeeds w fun _ w' => ∃ os, w' = w.after os :=
    ⟨_, _, rfl, [o], rfl⟩
  unfold start
  refine (hlog _).bind ?_
  rintro _ _ ⟨os, rfl⟩
  have hlook : (get : Act σ (World σ)).Succeeds (w.after os) fun x w' =>
      x = w.after os ∧ w' = w.after os := ⟨_, _, rfl, rfl, rfl⟩
  refine hlook.bind ?_
  rintro _ _ ⟨rfl, rfl⟩
  cases hr : a.request? with
  | none =>
    have hperform := succeeds_timed_perform (h := h) (w := w.after os) hr hcalm hdeep w.clock
    refine hperform.bind fun _ w' happlied => .pure ⟨.proceed, rfl, ?_⟩
    exact ⟨happlied.effect, happlied.host, happlied.shelf, happlied.listeners, happlied.surface⟩
  | some r =>
    have hask : (Act.ask h r).Succeeds (w.after os) fun reply w₁ => reply = (h.ask r w.host).1 ∧
        w₁ = { w.after os with host := (h.ask r w.host).2.1 }.after (h.ask r w.host).2.2 :=
      ⟨_, _, rfl, rfl, rfl⟩
    refine hask.bind ?_
    rintro _ _ ⟨rfl, rfl⟩
    have hconclude {reply : Reply} := @succeeds_conclude_reply _ h a w Q hhost hw hcalm r hr reply
    unfold reply? hostAfter at hconclude
    rw [hr] at hconclude
    dsimp only at hconclude
    generalize h.ask r w.host = out at hconclude
    obtain ⟨reply, s, os'⟩ := out
    cases reply with
    | some reply =>
      have hnow : (conclude a reply).Succeeds ({ w.after os with host := s }.after os')
          (a.IsApplied h w) := hconclude rfl rfl rfl rfl rfl
      exact (succeeds_timed hafter hnow w.clock).bind fun e w' happlied => .pure ⟨e, rfl, happlied⟩
    | none =>
      have hsettle (w₁ : World σ) : (Act.settle h r).Succeeds w₁ fun reply w₂ =>
          reply = (h.settle r w₁.host).1 ∧
            w₂ = { w₁ with host := (h.settle r w₁.host).2.1 }.after (h.settle r w₁.host).2.2 :=
        ⟨_, _, rfl, rfl, rfl⟩
      have hsettled := (hsettle ({ w.after os with host := s }.after os')).bind fun _ _ h' => by
        obtain ⟨rfl, rfl⟩ := h'
        exact hconclude rfl rfl rfl rfl rfl
      exact (succeeds_timed hafter hsettled w.clock).bind fun e w' happlied =>
        .pure ⟨e, rfl, happlied⟩

/-- **An action is applied.** When no observer fails, a host that refuses at most is dealt with, and
so is a storage, unless its data are needed and nested too deeply. -/
theorem succeeds_apply {Q : σ → Prop} (hhost : h.Obliges Q) (a : Action) (hcalm : w.IsCalm)
    (hw : Q w.host) (hdeep : (a.stores || a.looksUp) = true → ¬ w.shelf.IsTooDeep) :
    (a.apply h).Succeeds w fun e w' => a.IsApplied h w e w' ∧ Q w'.host := by
  refine (succeeds_start hhost a hcalm hw hdeep).bind ?_
  rintro _ w' ⟨e, rfl, happlied⟩
  exact .pure ⟨happlied, happlied.host ▸ obliged_hostAfter hhost hw⟩

/-- A storage whose data are nested too deeply stops an action that needs them. -/
theorem exec_perform_tooDeep (hneeds : (a.stores || a.looksUp) = true)
    (hdeep : w.shelf.IsTooDeep) : ∃ f w', (perform a).exec w = (.error f, w') ∧ f.kind = .tooDeep ∧
      w'.surface = w.surface ∧ w'.shelf = w.shelf := by
  obtain ⟨e, hitems, he⟩ := hdeep
  have hthrows (wording : Text) : (whenUnusable e.failure wording : Act σ Unit) =
      throw e.failure := by
    unfold whenUnusable
    rw [he.not_isInvalid, if_neg Bool.false_ne_true]
  rw [Bool.or_eq_true] at hneeds
  unfold stores looksUp at hneeds
  simp only [Bool.and_eq_true, decide_eq_true_eq, Bool.not_eq_true'] at hneeds
  unfold perform
  rcases hneeds with ⟨hkind, hempty⟩ | ⟨hkind, hempty⟩
  · have hset : w.shelf.set (a.param "key") (a.param "value") = (.error e, w.shelf) := by
      unfold Shelf.set
      rw [hitems]
    obtain ⟨os, hstore⟩ := Act.exists_exec_store (a.param "key") (a.param "value") w
    rw [hset] at hstore
    rw [hkind]
    dsimp only
    unfold saveItem
    rw [hempty, if_neg Bool.false_ne_true, Act.exec_bind, hstore]
    dsimp only
    rw [hthrows]
    exact ⟨e.failure, _, rfl, he, rfl, rfl⟩
  · have hget : w.shelf.get? (a.param "key") = .error e := by
      rw [Shelf.get?, hitems]
      rfl
    rw [hkind]
    dsimp only
    unfold showItem
    rw [hempty, if_neg Bool.false_ne_true, Act.exec_bind, Act.exec_get]
    dsimp only
    rw [hget]
    dsimp only
    rw [hthrows]
    exact ⟨e.failure, _, rfl, he, rfl, rfl⟩

/-- An action that needs data that are nested too deeply fails, and the surface and the storage stay
as they are. -/
theorem exec_apply_tooDeep (hneeds : (a.stores || a.looksUp) = true)
    (hdeep : w.shelf.IsTooDeep) : ∃ f w', (a.apply h).exec w = (.error f, w') ∧ f.kind = .tooDeep ∧
      w'.surface = w.surface ∧ w'.shelf = w.shelf := by
  have hr : a.request? = none := by
    unfold stores looksUp at hneeds
    unfold request?
    cases hkind : a.kind <;> first | rfl | (rw [hkind] at hneeds; cases hneeds)
  have hdeep' (os : List Occurrence) : (w.after os).shelf.IsTooDeep := hdeep
  unfold apply start
  rw [Act.exec_bind, Act.exec_bind, Act.exec_log]
  dsimp only
  rw [Act.exec_bind, Act.exec_get, hr]
  dsimp only
  generalize hw₁ : w.after [_] = w₁
  obtain rfl := hw₁
  obtain ⟨f, w', hperform, hf, hsurface, hshelf⟩ := exec_perform_tooDeep hneeds (hdeep' _)
  rw [Act.exec_bind, exec_timed, hperform]
  exact ⟨f, _, rfl, hf, hsurface, hshelf⟩

end Action

/-! ## Runs -/

/-- A world in which nothing stops a run: no observer fails, the host is in a state of some kind,
and no file is nested too deeply. -/
structure World.IsSafe (Q : σ → Prop) (w : World σ) : Prop where
  /-- No observer fails. -/
  calm : w.IsCalm
  /-- The host is in such a state. -/
  host : Q w.host
  /-- No file is nested too deeply. -/
  shelf : w.shelf.IsShallow

/-- A world stays safe when the host and the storage are spared. -/
theorem World.IsSafe.spared {Q : σ → Prop} {w w' : World σ} (hw : w.IsSafe Q) (h : w.Spares w') :
    w'.IsSafe Q :=
  ⟨hw.calm.of_sublist h.listeners, h.host ▸ hw.host, h.shelf ▸ hw.shelf⟩

/-- No file becomes nested too deeply when an action is applied. -/
theorem Shelf.IsShallow.after {s : Shelf} (hs : s.IsShallow) (a : Action) :
    (a.shelfAfter s).IsShallow := by
  unfold Action.shelfAfter
  split
  · exact hs.set _ _
  · exact hs

namespace Run

variable {h : Host σ} {Q : σ → Prop} {w : World σ}

/-- What a run reports about the actions that are left, counted from a position on, when nothing
stops it: all of them are applied, up to the first one that has reloaded the surface. Whether an
action has done so depends on how the host replies, whose state changes with every request. -/
def itinerary (h : Host σ) : Nat → List Action → σ → List Progress
  | _, [], _ => []
  | i, a :: rest, s =>
    match a.effect (a.reply? h false s) with
    | .reload => [.stepped i a.id .reload]
    | .proceed => .stepped i a.id .proceed :: itinerary h (i + 1) rest (a.hostAfter h s)

/-- An action is played in a safe world, which stays safe. -/
theorem succeeds_play (hhost : h.Obliges Q) (ms : Nat) (r : Run) (a : Action) (hw : w.IsSafe Q) :
    (r.play h ms a).Succeeds w fun e w' => e = a.effect (a.reply? h false w.host) ∧
      w'.host = a.hostAfter h w.host ∧ w'.IsSafe Q := by
  have hsleep : (Act.sleep ms).Succeeds w fun _ w' => w.Spares w' := by
    unfold Act.sleep
    split
    · exact ⟨_, _, rfl, rfl, rfl, .refl _⟩
    · exact .pure (Act.Frame.refl w)
  refine hsleep.bind fun _ w₁ h₁ => ?_
  have hannounce : (r.announce a).Succeeds w₁ fun _ w₂ => w.Spares w₂ :=
    ⟨_, _, rfl, h₁.host, h₁.shelf, h₁.listeners⟩
  refine hannounce.bind fun _ w₂ h₂ => ?_
  have hsafe := hw.spared h₂
  refine (a.succeeds_apply hhost hsafe.calm hsafe.host fun _ => hsafe.shelf.not_isTooDeep).bind ?_
  rintro e w₃ ⟨happlied, hQ⟩
  have hsafe₃ : w₃.IsSafe Q := by
    refine ⟨hsafe.calm.of_sublist happlied.listeners, hQ, ?_⟩
    rw [happlied.shelf]
    exact hsafe.shelf.after a
  have heffect := happlied.effect
  have hhost₃ := happlied.host
  rw [h₂.host] at heffect hhost₃
  by_cases hreload : e = .reload
  · rw [if_pos hreload]
    have hlog : (log (r.stepContext a) "Surface reloaded, run ends here").Succeeds w₃
        fun _ w₄ => w₃.Spares w₄ := ⟨_, _, rfl, rfl, rfl, .refl _⟩
    have hremount : (r.remount a).Succeeds w₃ fun _ w₄ => w₃.Spares w₄ := by
      refine hlog.bind fun _ w₄ h₄ => ?_
      exact (Act.succeeds_remake (hsafe₃.spared h₄).calm).mono fun _ _ => Act.Frame.trans h₄
    refine hremount.bind fun _ w₄ h₄ => .pure ⟨heffect, ?_, hsafe₃.spared h₄⟩
    exact h₄.host.trans hhost₃
  · rw [if_neg hreload]
    exact .pure ⟨heffect, hhost₃, hsafe₃⟩

/-- Actions are replayed in a safe world without a failure, up to the first one that has reloaded
the surface. The induction is on the actions; every one of them leaves the world safe. -/
theorem replay_eq_itinerary (hhost : h.Obliges Q) (ms : Nat) (r : Run) (actions : List Action)
    {i : Nat} (hw : w.IsSafe Q) :
    let y := replay (fun i a => ({ r with index := i } : Run).play h ms a) i actions w
    (∃ e, y.result = .ok e) ∧ y.steps.map (·.1) = itinerary h i actions w.host := by
  induction actions generalizing i w with
  | nil => exact ⟨⟨_, rfl⟩, rfl⟩
  | cons a rest ih =>
    obtain ⟨e, w', hplay, heffect, hhost', hsafe⟩ :=
      succeeds_play hhost ms { r with index := i } a hw
    unfold replay itinerary
    rw [hplay, ← heffect, ← hhost']
    cases e with
    | reload => exact ⟨⟨_, rfl⟩, rfl⟩
    | proceed =>
      obtain ⟨hresult, hsteps⟩ := ih (i := i + 1) hsafe
      exact ⟨hresult, congrArg (List.cons _) hsteps⟩

/-- A run begins in a safe world, which stays safe. -/
theorem succeeds_begin (r : Run) (hw : w.IsSafe Q) :
    r.begin.Succeeds w fun _ w' => w.Spares w' := by
  obtain ⟨r', w', hbegin⟩ := r.exists_exec_begin hw.calm
  have hspares : Act.Respects World.Spares (r.begin : Act σ Run) := by
    refine Act.Respects.bind (Act.Respects.modify fun _ => ⟨rfl, rfl, .refl _⟩) fun _ => ?_
    refine Act.Respects.get.bind fun _ => ?_
    refine Act.Respects.bind (fun w => (Act.quiet_log _ _ _ _ w).spares) fun _ => ?_
    refine Act.Respects.bind (Act.Respects.bind (Act.Respects.bind ?_ fun _ w => ?_) fun _ w => ?_)
      fun _ => Act.Respects.pure _
    · exact Act.Respects.modify fun _ => ⟨rfl, rfl, .refl _⟩
    · exact (Act.quiet_notify _ w).spares
    · exact (Act.quiet_notify _ w).spares
  have h := hspares w
  rw [hbegin] at h
  exact ⟨r', w', hbegin, h⟩

/-- The course of a run that has something to do is not stopped in a safe world. -/
theorem course_eq_itinerary (hhost : h.Obliges Q) (ms : Nat) {r : Run} (hindex : r.index = 0)
    (hw : w.IsSafe Q) :
    (∃ e, (r.course h ms w).result = .ok e) ∧
      (r.course h ms w).steps.map (·.1) = itinerary h 0 r.remaining w.host := by
  obtain ⟨r', w', hbegin, hspares⟩ := r.succeeds_begin hw
  obtain ⟨id, since, rfl⟩ := begin_eq hbegin
  unfold course
  rw [hbegin, ← hspares.host]
  have hreplay := replay_eq_itinerary hhost ms { r with id := id, since := since } r.remaining
    (i := r.index) (hw.spared hspares)
  rw [hindex] at hreplay
  unfold remainder
  rw [hindex]
  exact hreplay

end Run

/-- **Failures of the host and the storage stop no run.** When no observer fails and the host meets
or refuses every request, an action is applied: it has the effect of the reply, and where a request
is refused, a question is not answered, or the storage cannot be read or written, the surface stays
as it is and a failed write leaves every file as it was. The one exception is an action that needs
data that are nested too deeply, which fails. So where no file is nested too deeply, a run ends
well, and it has applied its actions up to the first one that has reloaded the surface, or all of
them. -/
theorem Run.withstands_failures {h : Host σ} {Q : σ → Prop} (hhost : h.Obliges Q) :
    (∀ (a : Action) (w : World σ), w.IsCalm → Q w.host →
      ((a.stores || a.looksUp) = true → ¬ w.shelf.IsTooDeep) →
      ∃ e w', (a.apply h).exec w = (.ok e, w') ∧ a.IsApplied h w e w' ∧
        ((∃ f, (w.shelf.set (a.param "key") (a.param "value")).1 = .error f) →
          w.shelf.LeavesFiles w'.shelf)) ∧
    (∀ (a : Action) (w : World σ), (a.stores || a.looksUp) = true → w.shelf.IsTooDeep →
      ∃ f w', (a.apply h).exec w = (.error f, w') ∧ f.kind = .tooDeep ∧
        w'.surface = w.surface ∧ w'.shelf = w.shelf) ∧
    ∀ (workflow : Option Workflow) (w : World σ), w.IsSafe Q →
      ∃ w', (complete h workflow).exec w = (.ok (), w') ∧ ∃ steps,
        reportsOf h workflow w = steps ++ [(.done, w')] ∧
        steps.map (·.1) = itinerary h 0 (ofWorkflow workflow).remaining w.host := by
  refine ⟨fun a w hcalm hw hdeep => ?_, fun a w => a.exec_apply_tooDeep, fun workflow w hw => ?_⟩
  · obtain ⟨e, w', hexec, happlied, -⟩ := a.succeeds_apply hhost hcalm hw hdeep
    refine ⟨e, w', hexec, happlied, fun ⟨f, hf⟩ => ?_⟩
    have hleaves := w.shelf.leaves_set (a.param "key") (a.param "value")
    unfold Shelf.Leaves at hleaves
    rw [hf] at hleaves
    rw [happlied.shelf]
    unfold Action.shelfAfter
    split
    · exact hleaves
    · exact .refl _
  · by_cases hnothing : (ofWorkflow workflow).remaining = []
    · refine ⟨_, complete_of_nothing h hnothing w, [], ?_, by rw [hnothing]; rfl⟩
      unfold reportsOf
      rw [iterate, run_advance_idle (phase_ofWorkflow workflow) hnothing]
      rfl
    · obtain ⟨x, rfl⟩ : ∃ x, workflow = some x := by
        cases workflow with
        | none => exact absurd rfl hnothing
        | some x => exact ⟨x, rfl⟩
      have hcourse := course_eq_itinerary hhost w.sequencer.pacing
        (r := ofWorkflow (some x)) rfl hw
      obtain ⟨⟨e, hresult⟩, hsteps⟩ := hcourse
      have hcomplete := complete_eq_course (h := h) (x := x) (w := w) rfl hnothing
      rw [hresult] at hcomplete
      refine ⟨_, hcomplete, _, ?_, hsteps⟩
      have hreports := iterate_eq_course (h := h) (w := w) (r := ofWorkflow (some x)) rfl rfl
        hnothing (Nat.le_refl _)
      unfold reportsOf
      rw [hreports, Replay.reports, hresult]
      rfl

/-- A run on a host that refuses messages, reloads and to close the surface: all its actions are
applied, whether the storage is a file that is no text, or its directory may not be written. -/
theorem Run.withstands_refusals :
    let x : Workflow := ⟨"Go", [⟨"a1", .alert, none⟩, ⟨"a2", .refreshPage, none⟩,
      ⟨"a3", .setLocalStorage, some [("key", "k"), ("value", "v")]⟩,
      ⟨"a4", .getLocalStorage, some [("key", "k")]⟩, ⟨"a5", .closeWindow, none⟩]⟩
    let world (fs : Files) : World HostScript := {
      surface := .fresh, listeners := [Streaming.listener]
      shelf := ⟨.file ⟨false, ["store.json"]⟩, fs⟩
      host := { refused := ["alert", "reload", "close"] }, sequencer := .paced 0 }
    let unreadable := world ⟨[], [(["store.json"], .file [255])], []⟩
    let closed := world ⟨[], [], [[]]⟩
    unreadable.IsSafe (fun s => s.broken = []) ∧ closed.IsSafe (fun s => s.broken = []) ∧
      (∃ w', (complete HostScript.host (some x)).exec unreadable = (.ok (), w') ∧
        w'.surface.output = ["Failed to close window"]) ∧
      ∃ w', (complete HostScript.host (some x)).exec closed = (.ok (), w') ∧
        w'.surface.output = ["k: Not found", "Failed to close window"] := by
  intro x world unreadable closed
  have hcalm (fs : Files) : (world fs).IsCalm := by
    intro l hl
    rw [List.mem_singleton.mp hl]
    exact Streaming.neverFails_listener
  have hshallow : unreadable.shelf.IsShallow := by
    refine Shelf.isShallow_of_entries fun y hy bytes hfile path e he => ?_
    obtain rfl := List.mem_singleton.mp hy
    cases hfile
    cases he
    nofun
  have hempty : closed.shelf.IsShallow := Shelf.isShallow_of_entries nofun
  have hunreadable : unreadable.IsSafe fun s => s.broken = [] := ⟨hcalm _, rfl, hshallow⟩
  have hclosed : closed.IsSafe fun s => s.broken = [] := ⟨hcalm _, rfl, hempty⟩
  obtain ⟨-, -, hruns⟩ := Run.withstands_failures HostScript.obliges
  obtain ⟨w₁, hcomplete₁, -⟩ := hruns (some x) unreadable hunreadable
  obtain ⟨w₂, hcomplete₂, -⟩ := hruns (some x) closed hclosed
  have houtput₁ : ((complete HostScript.host (some x)).exec unreadable).2.surface.output =
      ["Failed to close window"] := by decide +kernel
  have houtput₂ : ((complete HostScript.host (some x)).exec closed).2.surface.output =
      ["k: Not found", "Failed to close window"] := by decide +kernel
  rw [hcomplete₁] at houtput₁
  rw [hcomplete₂] at houtput₂
  exact ⟨hunreadable, hclosed, ⟨w₁, hcomplete₁, houtput₁⟩, w₂, hcomplete₂, houtput₂⟩

/-- Not every storage leaves a run going: where the file holds 961 opening brackets, an action that
looks a text up fails. -/
theorem Action.not_always_applied :
    ¬ ∀ (h : Host HostScript) (Q : HostScript → Prop), h.Obliges Q →
      ∀ (a : Action) (w : World HostScript), w.IsCalm → Q w.host →
        ∃ e w', (a.apply h).exec w = (.ok e, w') := by
  intro hall
  let a : Action := ⟨"a1", .getLocalStorage, some [("key", "k")]⟩
  let w : World HostScript := {
    surface := .fresh
    shelf := ⟨.file ⟨false, ["store.json"]⟩,
      ⟨[], [(["store.json"], .file (List.replicate 961 91))], []⟩⟩
    host := {}, sequencer := .paced 0 }
  obtain ⟨e, w', happly⟩ := hall HostScript.host _ HostScript.obliges a w nofun rfl
  have hfails : ((a.apply HostScript.host).exec w).1.isOk = false := by decide +kernel
  rw [happly] at hfails
  cases hfails

end PushButton
