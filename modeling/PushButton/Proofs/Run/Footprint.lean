import PushButton.Proofs.Host.Transparency
import PushButton.Proofs.Run.Amounts
import PushButton.Proofs.Run.Storing
import PushButton.Proofs.Run.Upkeep

/-!
# The footprint of an action

An action leaves few traces. It asks the host once at most, it changes one part of the surface at
most, everyone is told about this part and about no other, and it puts one text into the storage at
most, of which it tells in one line. A storage whose file is not where its path leads at first may
come to hold other items by an attempt that fails.
-/

namespace PushButton

variable {σ α : Type}

/-! ## Who is told -/

/-- An observer is told about a part. -/
def Occurrence.isNotice : Occurrence → Bool
  | .notified _ _ _ _ => true
  | .logged _ | .slept _ | .asked _ | .called _ | .printed _ => false

/-- What is silent tells nobody. -/
theorem AreSilent.filter_isNotice {os : List Occurrence} (h : AreSilent os) :
    os.filter Occurrence.isNotice = [] := by
  refine List.filter_eq_nil_iff.mpr fun o ho hnotice => ?_
  cases o with
  | notified l field lines images =>
    have hsilent := h _ ho l
    simp [Occurrence.noticeTo?] at hsilent
  | logged | slept | asked | called | printed => cases hnotice

/-- Observers are told about a part of a state, in the order of their subscriptions and once each,
and nobody is told about anything else: all of them, unless the last one that is told fails, and
with it whatever was done. -/
def Listener.AreTold (ls : List Listener) (field : Field) (s : SurfaceState)
    (res : Except Failure α) (os : List Occurrence) : Prop :=
  ∃ told, told <+: ls ∧
    os.filter Occurrence.isNotice =
      told.map (fun l => .notified l.name field s.output.length s.images.length) ∧
    match res with
    | .ok _ => told = ls
    | .error f => ∃ l past, told.getLast? = some l ∧ (l.react field s past).failure = some f

/-- When an observer is told, it is told once. -/
theorem Listener.filter_notice (l : Listener) (field : Field) (s : SurfaceState)
    (past : List Occurrence) : (l.notice field s past).filter Occurrence.isNotice =
      [.notified l.name field s.output.length s.images.length] := by
  have hprints (ts : List Text) : (ts.map Occurrence.printed).filter Occurrence.isNotice = [] := by
    refine List.filter_eq_nil_iff.mpr fun o ho hnotice => ?_
    obtain ⟨t, -, rfl⟩ := List.mem_map.mp ho
    cases hnotice
  unfold notice
  rw [List.filter_cons_of_pos rfl, hprints]

/-- Observers are told by a step in the midst of silent ones. -/
theorem Listener.AreTold.amid {ls : List Listener} {field : Field} {s : SurfaceState} {x : α}
    {res : Except Failure Unit} {os before after : List Occurrence}
    (h : AreTold ls field s res os) (hbefore : AreSilent before) (hafter : AreSilent after) :
    AreTold ls field s (res.map fun _ => x) (before ++ os ++ after) := by
  obtain ⟨told, htold, hos, hend⟩ := h
  refine ⟨told, htold, ?_, ?_⟩
  · rw [List.filter_append, List.filter_append, hbefore.filter_isNotice, hafter.filter_isNotice,
      hos, List.nil_append, List.append_nil]
  · cases res with
    | ok _ => exact hend
    | error f => exact hend

namespace Act

/-- A row of observers is told, up to the first one that fails. -/
theorem areTold_forM (field : Field) (ls : List Listener) (w : World σ) :
    ∃ os, ((ls.forM (tell field)).exec w).2.past = os.reverse ++ w.past ∧
      Listener.AreTold ls field w.surface ((ls.forM (tell field)).exec w).1 os := by
  induction ls generalizing w with
  | nil => exact ⟨[], rfl, [], List.prefix_refl _, rfl, rfl⟩
  | cons l ls ih =>
    have hnotice := l.filter_notice field w.surface w.past
    have hfirst : ((l :: ls).forM (tell field) : Act σ PUnit) =
      tell field l >>= fun _ => ls.forM (tell field) := rfl
    rw [hfirst, exec_bind, exec_tell]
    cases hreact : (l.react field w.surface w.past).failure with
    | some f =>
      exact ⟨l.notice field w.surface w.past, rfl, [l], ⟨ls, rfl⟩, hnotice, l, w.past, rfl,
        hreact⟩
    | none =>
      dsimp only [Option.elim]
      generalize hw₁ : ({ w.after (l.notice field w.surface w.past) with
        listeners := without (l.react field w.surface w.past).unsubscribes w.listeners } :
          World σ) = w₁
      have hsurface : w₁.surface = w.surface := hw₁ ▸ rfl
      have hpast₁ : w₁.past = (l.notice field w.surface w.past).reverse ++ w.past := hw₁ ▸ rfl
      obtain ⟨os, hpast, told, htold, hos, hend⟩ := ih w₁
      rw [hsurface] at hos hend
      refine ⟨l.notice field w.surface w.past ++ os, ?_, l :: told,
        (List.prefix_cons_inj l).mpr htold, ?_, ?_⟩
      · rw [hpast, hpast₁, List.reverse_append, List.append_assoc]
      · rw [List.filter_append, hnotice, hos]
        rfl
      · cases hres : ((ls.forM (tell field)).exec w₁).1 with
        | ok _ =>
          rw [hres] at hend
          exact congrArg (l :: ·) hend
        | error f =>
          rw [hres] at hend
          obtain ⟨l', past, hlast, hfails⟩ := hend
          refine ⟨l', past, ?_, hfails⟩
          rw [List.getLast?_cons, hlast]
          rfl

end Act

/-! ## The surface -/

/-- What a step leaves of the surface: it makes one change, of one part, about which its observers
are told; or it makes none, and nobody is told about anything. -/
structure World.Footprint (c : Option SurfaceChange) (w : World σ)
    (out : Except Failure α × World σ) : Prop where
  /-- The change is one of a single part. -/
  single : ∀ c' ∈ c, ∃ field, c'.fields = [field]
  /-- The surface is what the change has made of it. -/
  surface : out.2.surface = c.elim w.surface fun c' => c'.update w.surface
  /-- The runs are as they were. -/
  sequencer : out.2.sequencer = w.sequencer
  /-- Nothing that had happened is forgotten. -/
  past : out.2.past = (out.2.since w.past.length).reverse ++ w.past
  /-- Where there is no change nobody is told. -/
  silent : c = none → AreSilent (out.2.since w.past.length)
  /-- Where there is one the observers are told about its part. -/
  told : ∀ c' ∈ c, ∀ field ∈ c'.fields,
    Listener.AreTold w.listeners field out.2.surface out.1 (out.2.since w.past.length)

/-- A change of a single part is announced. -/
theorem SurfaceChange.areTold {c : SurfaceChange} {field : Field} (hfields : c.fields = [field])
    (w : World σ) : ∃ os, (c.act.exec w).2.past = os.reverse ++ w.past ∧
      Listener.AreTold w.listeners field (c.update w.surface) (c.act.exec w).1 os := by
  have hnotify : c.act.exec w =
      (w.listeners.forM (Act.tell field)).exec { w with surface := c.update w.surface } := by
    rw [exec_act, hfields]
    change (Act.notify field >>= fun _ => pure PUnit.unit).exec _ = _
    rw [bind_pure_unit]
    rfl
  rw [hnotify]
  exact Act.areTold_forM field w.listeners { w with surface := c.update w.surface }

/-- A step that amounts to a change of a single part leaves its footprint. -/
theorem World.Amounts.footprint {c : Option SurfaceChange} {f : Option Failure} {x : α}
    {w : World σ} {out : Except Failure α × World σ} (h : w.Amounts c f x out)
    (hsingle : ∀ c' ∈ c, ∃ field, c'.fields = [field]) : w.Footprint c out := by
  cases h with
  | nothing hc haside =>
    obtain ⟨os, hpast, hsilent⟩ := haside.past
    subst hc
    have hsince := World.since_eq hpast
    refine ⟨hsingle, haside.surface, haside.sequencer, ?_, ?_, nofun⟩
    · rw [hsince]
      exact hpast
    · rw [hsince]
      exact fun _ => hsilent
  | @changed c' res w₁ w₂ w' hc _ hbefore hact hafter =>
    subst hc
    obtain ⟨field, hfields⟩ := hsingle c' rfl
    obtain ⟨before, hpast, hsilent⟩ := hbefore.past
    obtain ⟨after, hpast', hsilent'⟩ := hafter.past
    obtain ⟨os, hacted, htold⟩ := SurfaceChange.areTold hfields w₁
    have hsurface := c'.surface_act w₁
    have hsequencer := congrArg World.sequencer (c'.quiet_act w₁).rest
    rw [hact] at hacted htold hsurface hsequencer
    rw [hbefore.surface] at hsurface
    have hsame : w'.surface = c'.update w.surface := hafter.surface.trans hsurface
    have hall : w'.past = (before ++ os ++ after).reverse ++ w.past := by
      rw [hpast', hacted, hpast]
      simp
    have hsince := World.since_eq hall
    refine ⟨hsingle, hsame, (hafter.sequencer.trans hsequencer).trans hbefore.sequencer, ?_, nofun,
      ?_⟩
    · rw [hsince]
      exact hall
    · rintro _ ⟨rfl⟩ field' hfield'
      obtain rfl : field' = field := by simpa [hfields] using hfield'
      rw [hbefore.surface, hbefore.listeners, ← hsame] at htold
      rw [hsince]
      exact htold.amid hsilent hsilent'

/-! ## The storage and the host -/

/-- The line about a text that was stored under a key. -/
def Action.savedLine (key value : Text) : Text :=
  "Saved to localStorage: " ++ key ++ " = " ++ value

/-- What is left when a text is to be stored under a key. -/
structure World.StoresAt (key value : Text) (w w' : World σ) : Prop where
  /-- Nothing happens when the key or the text is missing. -/
  missing : (key.isEmpty || value.isEmpty) = true → w'.surface = w.surface ∧ w'.shelf = w.shelf
  /-- Where the storage takes the text, the line about it is put out, the text is found, and under
  other keys is what was there. -/
  taken : (key.isEmpty || value.isEmpty) = false → (w.shelf.set key value).1 = .ok () →
    w'.surface = { w.surface with output := w.surface.output ++ [Action.savedLine key value] } ∧
      ∀ other, w'.shelf.get? other =
        if key = other then .ok (some value) else w.shelf.get? other
  /-- Where it does not, no line is put out, and under every key is what was there if the storage is
  steady. -/
  refused : ∀ e, (key.isEmpty || value.isEmpty) = false → (w.shelf.set key value).1 = .error e →
    w'.surface = w.surface ∧
      (w.shelf.IsSteady → ∀ other, w'.shelf.get? other = w.shelf.get? other)

/-- A host that does nothing. -/
def Host.idle : Host σ where
  ask _ s := (none, s, [])
  settle _ s := (.done, s, [])
  abandon _ s := (s, [])

/-- The host is in the state in which it was. -/
def World.LeavesHost (w w' : World σ) : Prop := w'.host = w.host

instance : Act.Frame (World.LeavesHost (σ := σ)) := .same World.host

/-- An ordinary step in front of a host that does nothing leaves the host as it is. -/
theorem Act.Ordinary.leavesHost {act : Act σ α} (hact : act.Ordinary Host.idle) :
    Respects World.LeavesHost act := by
  refine hact.respects ⟨fun c w => ?_, fun _ _ _ _ _ => rfl, fun _ _ => rfl, fun _ _ => rfl,
    fun _ _ => rfl⟩
  exact (c.quiet_act w).spares.host

namespace Action

variable {a : Action}

/-- What a reply means leaves the host as it is. -/
theorem leavesHost_conclude (a : Action) (reply : Reply) :
    Act.Respects World.LeavesHost (conclude a reply : Act σ Effect) :=
  (ordinary_conclude Host.idle a reply).leavesHost

/-- A request is settled, and nothing else changes the state of the host. -/
theorem host_settle (h : Host σ) (a : Action) (r : Request) (since : Nat) (w : World σ) :
    ((settle h a r since).exec w).2.host = (h.settle r w.host).2.1 := by
  unfold settle
  rw [exec_timed, Act.exec_bind, Act.exec_settle]
  exact leavesHost_conclude a _ _

/-- Nothing but its request changes the state of the host when an action is begun without
waiting. -/
theorem host_start (h : Host σ) (a : Action) (w : World σ) :
    ((a.start h false).exec w).2.host = a.hostAfter h w.host := by
  have hpure {β : Type} (g : β → Begun) (x : β) :
      Act.Respects World.LeavesHost (pure (g x) : Act σ Begun) := Act.Respects.pure _
  unfold start hostAfter
  rw [Act.exec_bind, Act.exec_log]
  dsimp only
  rw [Act.exec_bind, Act.exec_get]
  dsimp only
  generalize hw₁ : w.after [_] = w₁
  have hhost : w₁.host = w.host := hw₁ ▸ rfl
  rw [← hhost]
  cases hr : a.request? with
  | none =>
    have hperform : Act.Respects World.LeavesHost (a.timed w₁.clock (perform a) : Act σ Unit) :=
      (Act.Ordinary.timed a w₁.clock (ordinary_perform Host.idle a)).leavesHost
    exact (hperform.bind (hpure fun _ => .applied .proceed)) w₁
  | some r =>
    dsimp only
    rw [Act.exec_bind, Act.exec_ask]
    dsimp only
    generalize h.ask r w₁.host = out
    obtain ⟨reply, host, os⟩ := out
    cases reply with
    | some reply =>
      have hconclude : Act.Respects World.LeavesHost (a.timed w₁.clock (conclude a reply)) :=
        (Act.Ordinary.timed a w₁.clock (ordinary_conclude (σ := σ) Host.idle a reply)).leavesHost
      exact (hconclude.bind (hpure .applied)) _
    | none =>
      simp only [Bool.false_eq_true, if_false]
      exact Act.rel_bind_of (R := fun w w' => w'.host = (h.settle r w.host).2.1)
        (fun hsettled hsame => hsame.trans hsettled) (host_settle h a r w₁.clock _) (hpure .applied)

/-- Nothing but its request changes the state of the host when an action is applied. -/
theorem host_apply (h : Host σ) (a : Action) (w : World σ) :
    ((a.apply h).exec w).2.host = a.hostAfter h w.host := by
  obtain ⟨res, w', hstart, happly⟩ := a.exec_apply h w
  have hhost := host_start h a w
  rw [hstart] at hhost
  rw [happly]
  exact hhost

/-- A host that notes what it is asked notes the request of an action. -/
theorem hostAfter_noting (h : Host σ) (a : Action) (s : σ) (notes : List Request) :
    a.hostAfter h.noting (s, notes) = (a.hostAfter h s, notes ++ a.request?.toList) := by
  unfold hostAfter
  cases a.request? with
  | none => simp
  | some r =>
    cases hask : h.ask r s with
    | mk reply rest =>
      cases reply with
      | some reply => simp [Host.noting, hask]
      | none => simp [Host.noting, hask]

/-- The change that an action makes is one of a single part. -/
theorem exists_field_of_change? {s : Shelf} {reply : Option Reply} {draws : List Nat}
    {c : SurfaceChange} (h : a.change? s reply draws = some c) : ∃ field, c.fields = [field] := by
  have hline {lines : List Text} (h : lines.head?.map SurfaceChange.putLine = some c) :
      ∃ field, c.fields = [field] := by
    obtain ⟨line, -, rfl⟩ := Option.map_eq_some_iff.mp h
    exact ⟨.output, rfl⟩
  unfold change? at h
  cases hkind : a.kind with
  | showImage =>
    rw [hkind] at h
    obtain ⟨url, -, rfl⟩ := Option.map_eq_some_iff.mp h
    exact ⟨.images, rfl⟩
  | increaseButtonSize =>
    rw [hkind] at h
    cases h
    exact ⟨.scale, rfl⟩
  | changeButtonColor =>
    rw [hkind] at h
    dsimp only at h
    split at h
    · cases h
      exact ⟨.color, rfl⟩
    · split at h
      · cases h
      · cases h
        exact ⟨.color, rfl⟩
  | disableButton =>
    rw [hkind] at h
    cases h
    exact ⟨.disabled, rfl⟩
  | _ =>
    rw [hkind] at h
    exact hline h

/-- **What an action leaves of the surface.** -/
theorem footprint_apply (h : Host σ) [h.IsDiscreet] (a : Action) (w : World σ) :
    w.Footprint (a.change? w.shelf (a.reply? h false w.host) w.draws) ((a.apply h).exec w) :=
  (amounts_apply h a w).footprint fun _ hc => exists_field_of_change? hc

/-- An action changes the storage as its text does, however it ends. -/
theorem shelf_apply (h : Host σ) (a : Action) (w : World σ) :
    ((a.apply h).exec w).2.shelf = a.shelfAfter w.shelf := by
  obtain ⟨res, w', hstart, happly⟩ := a.exec_apply h w
  have hshelf := shelf_start h false a w
  rw [hstart] at hshelf
  rw [happly]
  exact hshelf

/-- An action that stores a text leaves what it should. -/
theorem storesAt_apply (h : Host σ) [h.IsDiscreet] (w : World σ)
    (hkind : a.kind = .setLocalStorage) :
    w.StoresAt (a.param "key") (a.param "value") ((a.apply h).exec w).2 := by
  have hsurface := (footprint_apply h a w).surface
  have hshelf := shelf_apply h a w
  unfold shelfAfter stores at hshelf
  unfold change? lines savedLines at hsurface
  simp only [hkind, decide_true, Bool.true_and] at hsurface hshelf
  generalize ((a.apply h).exec w).2 = w' at hsurface hshelf
  constructor
  · intro hempty
    rw [hempty] at hsurface hshelf
    exact ⟨hsurface, hshelf⟩
  · intro hgiven hset
    rw [hgiven, hset] at hsurface
    rw [hgiven] at hshelf
    refine ⟨hsurface, ?_⟩
    have hstored : w.shelf.set (a.param "key") (a.param "value") = (.ok (), w'.shelf) := by
      rw [hshelf, ← hset]
      rfl
    exact Shelf.get?_of_set hstored
  · intro e hgiven hset
    rw [hgiven, hset] at hsurface
    rw [hgiven] at hshelf
    refine ⟨hsurface, fun hsteady => ?_⟩
    have hrefused : w.shelf.set (a.param "key") (a.param "value") = (.error e, w'.shelf) := by
      rw [hshelf, ← hset]
      rfl
    exact hsteady.get?_of_refused hrefused

/-- An action that makes a request gets a reply when it does not wait. -/
theorem exists_reply? {h : Host σ} {r : Request} (hr : a.request? = some r) (s : σ) :
    ∃ reply, a.reply? h false s = some reply := by
  unfold reply?
  rw [hr]
  dsimp only
  split
  · exact ⟨_, rfl⟩
  · exact ⟨_, rfl⟩

/-- The effect is a reload exactly when the host has reloaded the surface. -/
theorem effect_eq_reload_iff (h : Host σ) (a : Action) (s : σ) :
    a.effect (a.reply? h false s) = .reload ↔
      a.kind = .refreshPage ∧ ∀ f, a.reply? h false s ≠ some (.failed f) := by
  unfold effect
  cases hkind : a.kind with
  | refreshPage =>
    have hr : a.request? = some .reload := by rw [request?, hkind]
    obtain ⟨reply, hreply⟩ := exists_reply? (h := h) hr s
    rw [hreply]
    cases reply with
    | failed f => simp
    | done | answer t => simp
  | _ => simp

/-- Reloading changes nothing on the surface. -/
theorem change?_of_refreshPage (hkind : a.kind = .refreshPage) (s : Shelf) (reply : Option Reply)
    (draws : List Nat) : a.change? s reply draws = none := by
  unfold change? lines
  rw [hkind]
  rfl

/-- What comes of an action that reloads the surface. -/
theorem result_of_refreshPage (h : Host σ) [h.IsDiscreet] (hkind : a.kind = .refreshPage)
    (w : World σ) : ((a.apply h).exec w).1 =
      (a.fault? w.shelf (a.reply? h false w.host)).elim
        (.ok (a.effect (a.reply? h false w.host))) .error := by
  have hamounts := amounts_apply h a w
  rw [change?_of_refreshPage hkind] at hamounts
  exact hamounts.result

/-- **An action leaves its footprint.** In front of a discreet host, an action changes the state of
the host by its request alone; a host that notes what it is asked notes one request at most, and
none unless a dialog is to be shown, the surface reloaded or closed. It changes the surface in one
part at most, in the lines and images at their end alone, and exactly the observers are told, about
this part. Only an action that stores a text changes the storage: under its key when the storage
takes the text, with the line about it, and otherwise not at all, if the storage is steady. The
effect is a reload exactly when the surface is to be reloaded and the host has not failed to; then
the surface and the storage are as they were. -/
theorem leaves_footprint (h : Host σ) [h.IsDiscreet] (a : Action) (w : World σ) :
    ((a.apply h).exec w).2.host = a.hostAfter h w.host ∧
      (∀ notes, ((a.apply h.noting).exec (w.on (w.host, notes))).2.host =
        (a.hostAfter h w.host, notes ++ a.request?.toList)) ∧
      (a.request?.isSome = true ↔
        a.kind ∈ [.alert, .promptAndShow, .refreshPage, .closeWindow]) ∧
      w.Footprint (a.change? w.shelf (a.reply? h false w.host) w.draws) ((a.apply h).exec w) ∧
      (a.kind ≠ .setLocalStorage → ((a.apply h).exec w).2.shelf = w.shelf) ∧
      (a.kind = .setLocalStorage →
        w.StoresAt (a.param "key") (a.param "value") ((a.apply h).exec w).2) ∧
      (((a.apply h).exec w).1 = .ok .reload ↔
        a.kind = .refreshPage ∧ ∀ f, a.reply? h false w.host ≠ some (.failed f)) ∧
      (((a.apply h).exec w).1 = .ok .reload → ((a.apply h).exec w).2.surface = w.surface ∧
        ((a.apply h).exec w).2.shelf = w.shelf) ∧
      (a.kind = .refreshPage → ∀ f, a.reply? h false w.host = some (.failed f) →
        ((a.apply h).exec w).1 = if f.kind = .refused then .ok .proceed else .error f) := by
  have hshelf (hkind : a.kind ≠ .setLocalStorage) : ((a.apply h).exec w).2.shelf = w.shelf := by
    rw [shelf_apply, shelfAfter, stores, decide_eq_false hkind]
    rfl
  have hreload : ((a.apply h).exec w).1 = .ok .reload ↔
      a.kind = .refreshPage ∧ ∀ f, a.reply? h false w.host ≠ some (.failed f) := by
    rw [← effect_eq_reload_iff h a w.host]
    constructor
    · intro hres
      exact ((amounts_apply h a w).eq_of_ok hres).symm
    · intro heffect
      obtain ⟨hkind, hmet⟩ := (effect_eq_reload_iff h a w.host).mp heffect
      rw [result_of_refreshPage h hkind, heffect]
      unfold fault?
      rw [hkind]
      cases hreply : a.reply? h false w.host with
      | none => rfl
      | some reply =>
        cases reply with
        | failed f => exact absurd hreply (hmet f)
        | done | answer t => rfl
  refine ⟨host_apply h a w, fun notes => ?_, ?_, footprint_apply h a w, hshelf, storesAt_apply h w,
    hreload, fun hres => ?_, fun hkind f hreply => ?_⟩
  · exact (host_apply h.noting a _).trans (hostAfter_noting h a w.host notes)
  · unfold request?
    cases a.kind <;> simp
  · obtain ⟨hkind, -⟩ := hreload.mp hres
    have hsurface := (footprint_apply h a w).surface
    rw [change?_of_refreshPage hkind] at hsurface
    exact ⟨hsurface, hshelf (by rw [hkind]; decide)⟩
  · rw [result_of_refreshPage h hkind, hreply]
    unfold fault? effect
    rw [hkind]
    dsimp only
    split
    · rfl
    · rfl

/-- A question that is answered is asked once; the answer is put out, and the screen is told. -/
theorem leaves_footprint_of_answer :
    let a : Action := ⟨"a1", .promptAndShow, none⟩
    let w : World HostScript := {
      surface := .fresh, listeners := [⟨"screen", fun _ _ _ => {}⟩]
      shelf := ⟨.memory [], ⟨[], [], []⟩⟩, host := { answers := [some "Ada"] }
      sequencer := .paced 0 }
    let out := (a.apply HostScript.host).exec w
    out.2.host.answers = [] ∧
      ((a.apply HostScript.host.noting).exec (w.on (w.host, []))).2.host.2 =
        [.prompt "Please enter a value"] ∧
      out.2.surface = { w.surface with output := ["You entered: Ada"] } ∧
      Listener.AreTold w.listeners .output out.2.surface out.1 (out.2.since w.past.length) ∧
      out.2.shelf = w.shelf ∧ out.1 ≠ .ok .reload := by
  intro a w out
  obtain ⟨hhost, hnotes, -, hprint, hshelf, -, hreload, -, -⟩ :=
    leaves_footprint HostScript.host a w
  have hchange : a.change? w.shelf (a.reply? HostScript.host false w.host) w.draws =
      some (.putLine "You entered: Ada") := rfl
  rw [hchange] at hprint
  refine ⟨?_, ?_, hprint.surface, hprint.told _ rfl _ (List.mem_singleton_self _),
    hshelf (by decide), ?_⟩
  · rw [hhost]
    rfl
  · rw [hnotes]
    rfl
  · rw [Ne, hreload]
    rintro ⟨hkind, -⟩
    cases hkind

/-- A text that a storage does not take may change what is under another key: the file of a path
that steps back behind a missing directory comes to be there. -/
theorem not_always_under_its_key :
    ¬ ∀ (a : Action) (w : World HostScript) (other : Text), other ≠ a.param "key" →
      ((a.apply HostScript.host).exec w).2.shelf.get? other = w.shelf.get? other := by
  intro h
  let a : Action := ⟨"a1", .setLocalStorage, some [("key", "name"), ("value", [.lone 0])]⟩
  -- the file holds the object in which the text under the key a is 1
  let object : Bytes := [123, 34, 97, 34, 58, 32, 34, 49, 34, 125]
  let w : World HostScript := {
    surface := .fresh, sequencer := .paced 0, host := {}
    shelf := ⟨.file ⟨false, ["new", "..", "store.json"]⟩,
      ⟨["home"], [(["home"], .directory), (["home", "store.json"], .file object)], []⟩⟩ }
  have hbefore : w.shelf.get? "a" = .ok none := by decide +kernel
  have hafter : ((a.apply HostScript.host).exec w).2.shelf.get? "a" = .ok (some "1") := by
    decide +kernel
  have hsame := h a w "a" (by decide)
  rw [hbefore, hafter] at hsame
  cases hsame

end Action

end PushButton
