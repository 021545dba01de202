import PushButton.Proofs.Run.Lifecycle

/-!
# Observers are told once

When a change is announced, the observers who have subscribed by then are told one after the other,
even if some of them leave meanwhile. So an observer that has subscribed once and never leaves is
told exactly once, unless one of them fails, which breaks the announcement off. A mirror is such an
observer: it copies the part of the surface that it is told about.
-/

namespace PushButton

variable {σ : Type}

/-! ## Mirrors -/

/-- A part of the state as a JSON value. -/
def SurfaceState.entry (s : SurfaceState) : Field → Json
  | .output => .array (s.output.map .text)
  | .images => .array (s.images.map .text)
  | .scale => .float s.scale
  | .color => .text s.color
  | .disabled => .bool s.disabled

/-- The state as a JSON value consists of its parts. -/
theorem SurfaceState.snapshot_eq (s : SurfaceState) :
    s.snapshot = .object (Field.all.map fun field => (field.name, s.entry field)) := rfl

/-- What a mirror shows, as far as it follows from what has happened. -/
@[ext] structure Mirror where
  /-- What it shows for each part. -/
  shown : Field → Text
  /-- The part that it was told about and has not copied yet. -/
  pending : Option Field := none

namespace Mirror

/-- The mirror that shows a state, each part in some wording. -/
def of (wording : Json → Text) (s : SurfaceState) : Mirror where
  shown field := wording (s.entry field)

/-- The mirror that shows a text for a part. -/
def put (m : Mirror) (field : Field) (t : Text) : Mirror where
  shown f := if f = field then t else m.shown f

/-- What becomes of a mirror with a name when something happens: it is told about a part, and then
it prints its copy of this part. -/
def hear (name : Text) (m : Mirror) : Occurrence → Mirror
  | .notified l field _ _ => if l = name then { m with pending := some field } else m
  | .printed t =>
    match m.pending with
    | some field => m.put field t
    | none => m
  | .logged _ | .slept _ | .asked _ | .called _ => m

/-- What becomes of a mirror with a name when several things happen. -/
def after (name : Text) (m : Mirror) (os : List Occurrence) : Mirror := os.foldl (hear name) m

/-- The observer that prints a copy of every part that it is told about, in some wording. -/
def listener (name : Text) (wording : Json → Text) : Listener where
  name := name
  react field s _ := { prints := [wording (s.entry field)] }

/-- A mirror after it has copied some parts of a state. -/
def copy (wording : Json → Text) (s : SurfaceState) (m : Mirror) (fields : List Field) : Mirror :=
  fields.foldl (fun m field => m.put field (wording (s.entry field))) m

end Mirror

/-! ## Observers who stay -/

namespace Occurrence

/-- The part about which the observer with a name is told. -/
def noticeTo? (name : Text) : Occurrence → Option Field
  | .notified l field _ _ => if l = name then some field else none
  | .logged _ | .slept _ | .asked _ | .called _ | .printed _ => none

/-- Nobody is told about a part. -/
def IsSilent (o : Occurrence) : Prop := ∀ name, o.noticeTo? name = none

end Occurrence

/-- An observer that never ends the subscription of a name. -/
def Listener.Spares (l : Listener) (name : Text) : Prop :=
  ∀ field s past, name ∉ (l.react field s past).unsubscribes

/-- An observer has subscribed once, and nobody who observes the surface ends its subscription. -/
structure World.Watches (w : World σ) (l : Listener) : Prop where
  /-- There is one subscription of its name. -/
  once : (w.listeners.filter fun l' => l'.name = l.name) = [l]
  /-- Nobody ends it. -/
  spared : ∀ l' ∈ w.listeners, l'.Spares l.name

/-- What happens tells an observer about some parts of a state, in their order and once each. If it
is a mirror, it copies these parts. -/
structure Listener.IsTold (l : Listener) (fields : List Field) (s : SurfaceState)
    (os : List Occurrence) : Prop where
  /-- It is told about the parts. -/
  notices : os.filterMap (Occurrence.noticeTo? l.name) = fields
  /-- A mirror copies the parts. -/
  mirror : ∀ (wording : Json → Text) (m : Mirror), l = Mirror.listener l.name wording →
    m.pending = none → m.after l.name os = Mirror.copy wording s m fields

/-- Some things have happened; an observer has stayed, and the surface is as it was. -/
structure Listener.Stays (l : Listener) (os : List Occurrence) (w w' : World σ) : Prop where
  /-- The observer has stayed. -/
  watches : w'.Watches l
  /-- The surface is as it was. -/
  surface : w'.surface = w.surface
  /-- The things have happened. -/
  past : w'.past = os.reverse ++ w.past

/-- An observer stays while one thing happens after the other. -/
theorem Listener.Stays.trans {l : Listener} {os os' : List Occurrence} {w w' w'' : World σ}
    (h : l.Stays os w w') (h' : l.Stays os' w' w'') : l.Stays (os ++ os') w w'' where
  watches := h'.watches
  surface := h'.surface.trans h.surface
  past := by rw [h'.past, h.past, List.reverse_append, List.append_assoc]

/-- An observer is told about nothing, while the surface stays as it is. -/
def World.Unheard (l : Listener) (w w' : World σ) : Prop :=
  w.Watches l → ∃ os, l.Stays os w w' ∧ ∀ o ∈ os, o.noticeTo? l.name = none

instance (l : Listener) : Act.Frame (World.Unheard (σ := σ) l) where
  refl w hw := ⟨[], ⟨hw, rfl, rfl⟩, nofun⟩
  trans {w w' w''} h h' hw := by
    obtain ⟨os, hstays, hos⟩ := h hw
    obtain ⟨os', hstays', hos'⟩ := h' hstays.watches
    refine ⟨os ++ os', hstays.trans hstays', fun o ho => ?_⟩
    exact (List.mem_append.mp ho).elim (hos o) (hos' o)

/-! ## One observer is told -/

/-- What happens when an observer is told about a part of a state. -/
def Listener.notice (l : Listener) (field : Field) (s : SurfaceState) (past : List Occurrence) :
    List Occurrence :=
  .notified l.name field s.output.length s.images.length ::
    (l.react field s past).prints.map .printed

namespace Act

/-- Texts are printed. -/
theorem exec_prints (ts : List Text) (w : World σ) :
    (ts.forM fun t => occur (.printed t)).exec w = (.ok ⟨⟩, w.after (ts.map .printed)) := by
  induction ts generalizing w with
  | nil => rfl
  | cons t ts ih =>
    change ((occur (.printed t) : Act σ PUnit) >>= fun _ =>
      ts.forM fun t => occur (.printed t)).exec w = _
    rw [exec_bind, exec_occur]
    dsimp only
    rw [ih]
    simp [World.after]

/-- An observer is told, whether or not it fails. -/
theorem exec_tell (field : Field) (l : Listener) (w : World σ) :
    (tell field l).exec w =
      ((l.react field w.surface w.past).failure.elim (.ok ⟨⟩) .error,
        { w.after (l.notice field w.surface w.past) with
          listeners := without (l.react field w.surface w.past).unsubscribes w.listeners }) := by
  unfold tell
  simp only [exec_bind, exec_get, exec_occur, exec_prints, exec_modify]
  cases (l.react field w.surface w.past).failure with
  | none => simp [World.after, Listener.notice]
  | some f => simp [World.after, Listener.notice]

/-- The subscription of a name stays when those of other names end. -/
theorem filter_without {name : Text} {names : List Text} (hname : name ∉ names)
    (ls : List Listener) :
    ((without names ls).filter fun l => l.name = name) = ls.filter fun l => l.name = name := by
  have hone {other : Text} (hother : other ≠ name) (ls : List Listener) :
      ((ls.eraseP fun l => l.name = other).filter fun l => l.name = name) =
        ls.filter fun l => l.name = name := by
    induction ls with
    | nil => rfl
    | cons l ls ih =>
      by_cases hl : l.name = other
      · have hne : l.name ≠ name := hl ▸ hother
        rw [List.eraseP_cons_of_pos (by simpa using hl),
          List.filter_cons_of_neg (by simpa using hne)]
      · rw [List.eraseP_cons_of_neg (by simpa using hl), List.filter_cons, List.filter_cons, ih]
  unfold without
  induction names generalizing ls with
  | nil => rfl
  | cons other names ih =>
    rw [List.mem_cons, not_or] at hname
    rw [List.foldl_cons, ih hname.2, hone (Ne.symm hname.1)]

end Act

/-- An observer stays when subscriptions of other names end. -/
theorem World.Watches.without {w : World σ} {l : Listener} (hw : w.Watches l) {names : List Text}
    (hnames : l.name ∉ names) :
    World.Watches { w with listeners := Act.without names w.listeners } l where
  once := (Act.filter_without hnames w.listeners).trans hw.once
  spared l' hl' := hw.spared l' ((Act.without_sublist names w.listeners).subset hl')

namespace Act

/-- What happens is no notice to an observer. -/
theorem unheard_occur {l : Listener} {o : Occurrence} (ho : o.noticeTo? l.name = none) :
    Respects (World.Unheard l) (occur o : Act σ Unit) := by
  intro w hw
  refine ⟨[o], ⟨⟨hw.once, hw.spared⟩, rfl, rfl⟩, fun o' ho' => ?_⟩
  rw [List.mem_singleton.mp ho']
  exact ho

/-- Telling another observer is no notice to an observer. -/
theorem unheard_tell (field : Field) {l l' : Listener} (hname : l'.name ≠ l.name)
    (hspares : l'.Spares l.name) :
    Respects (World.Unheard l) (tell field l' : Act σ Unit) := by
  have hnotice (s : SurfaceState) :
      (Occurrence.notified l'.name field s.output.length s.images.length).noticeTo? l.name =
        none := if_neg hname
  refine Respects.get.bind fun w => (unheard_occur (hnotice w.surface)).bind fun _ => ?_
  refine (Respects.forM fun t _ => unheard_occur rfl).bind fun _ => ?_
  refine (Respects.modify fun w' hw' => ?_).bind fun _ => ?_
  · exact ⟨[], ⟨hw'.without (hspares field w.surface w.past), rfl, rfl⟩, nofun⟩
  · split
    · exact Respects.throw _
    · exact Respects.pure _

end Act

namespace Mirror

variable {name : Text} {m : Mirror}

/-- Things that happen one after the other. -/
theorem after_append (m : Mirror) (os os' : List Occurrence) :
    m.after name (os ++ os') = (m.after name os).after name os' := List.foldl_append

/-- A mirror that has nothing to copy stays as it is until it is told. -/
theorem after_of_unheard {os : List Occurrence} (hpending : m.pending = none)
    (hos : ∀ o ∈ os, o.noticeTo? name = none) : m.after name os = m := by
  induction os with
  | nil => rfl
  | cons o os ih =>
    have hhear : m.hear name o = m := by
      have ho := hos o List.mem_cons_self
      cases o with
      | notified l field lines images =>
        have hname : l ≠ name := by
          rintro rfl
          simp [Occurrence.noticeTo?] at ho
        exact if_neg hname
      | printed t =>
        unfold hear
        rw [hpending]
      | logged | slept | asked | called => rfl
    change (m.hear name o).after name os = m
    rw [hhear]
    exact ih fun o ho => hos o (List.mem_cons_of_mem _ ho)

/-- A mirror that is told about a part copies it. -/
theorem after_notice (wording : Json → Text) (m : Mirror) (field : Field) (s : SurfaceState)
    (past : List Occurrence) :
    m.after name ((listener name wording).notice field s past) =
      m.put field (wording (s.entry field)) := by
  have htold : m.hear name (.notified (listener name wording).name field s.output.length
      s.images.length) = { m with pending := some field } := if_pos rfl
  change (m.hear name _).hear name (.printed (wording (s.entry field))) = _
  rw [htold]
  rfl

end Mirror

/-! ## Everyone is told -/

namespace Act

/-- A row of steps with one of them singled out. -/
theorem exec_forM_append (before after : List Listener) (l : Listener)
    (act : Listener → Act σ PUnit) (w : World σ) : ((before ++ l :: after).forM act).exec w =
      (before.forM act >>= fun _ => act l >>= fun _ => after.forM act).exec w := by
  induction before generalizing w with
  | nil => rfl
  | cons l' before ih =>
    change (act l' >>= fun _ => (before ++ l :: after).forM act).exec w =
      ((act l' >>= fun _ => before.forM act) >>= fun _ =>
        act l >>= fun _ => after.forM act).exec w
    rw [bind_assoc, exec_bind, exec_bind]
    cases (act l').exec w with
    | mk res w' =>
      cases res with
      | error f => rfl
      | ok x => exact ih w'

/-- Telling a row of other observers is no notice to an observer. -/
theorem unheard_forM (field : Field) {l : Listener} {ls : List Listener}
    (hnames : ∀ l' ∈ ls, l'.name ≠ l.name) (hspares : ∀ l' ∈ ls, l'.Spares l.name) :
    Respects (World.Unheard l) (ls.forM (tell field) : Act σ PUnit) :=
  Respects.forM fun l' hl' => unheard_tell field (hnames l' hl') (hspares l' hl')

end Act

/-- Nothing but notices to others tells an observer about no part. -/
theorem Listener.filterMap_noticeTo? {name : Text} {os : List Occurrence}
    (hos : ∀ o ∈ os, o.noticeTo? name = none) : os.filterMap (Occurrence.noticeTo? name) = [] :=
  List.filterMap_eq_nil_iff.mpr hos

/-- Between notices to others, an observer is told about one part. -/
theorem Listener.isTold_notice (l : Listener) (field : Field) (s : SurfaceState)
    (past : List Occurrence) {before after : List Occurrence}
    (hbefore : ∀ o ∈ before, o.noticeTo? l.name = none)
    (hafter : ∀ o ∈ after, o.noticeTo? l.name = none) :
    l.IsTold [field] s (before ++ l.notice field s past ++ after) where
  notices := by
    have hprints : ((l.react field s past).prints.map .printed).filterMap
        (Occurrence.noticeTo? l.name) = [] := by
      refine filterMap_noticeTo? fun o ho => ?_
      obtain ⟨t, -, rfl⟩ := List.mem_map.mp ho
      rfl
    have hnotice : (l.notice field s past).filterMap (Occurrence.noticeTo? l.name) = [field] := by
      have hfirst : (Occurrence.notified l.name field s.output.length s.images.length).noticeTo?
          l.name = some field := if_pos rfl
      unfold notice
      rw [List.filterMap_cons_some hfirst, hprints]
    rw [List.filterMap_append, List.filterMap_append, filterMap_noticeTo? hbefore,
      filterMap_noticeTo? hafter, hnotice]
    rfl
  mirror wording m hl hpending := by
    have hcopy : m.after l.name (l.notice field s past) =
        m.put field (wording (s.entry field)) := by
      rw [hl]
      exact Mirror.after_notice wording m field s past
    rw [Mirror.after_append, Mirror.after_append, Mirror.after_of_unheard hpending hbefore, hcopy,
      Mirror.after_of_unheard rfl hafter]
    rfl

/-- A step tells an observer that stays about a part of the surface: at most once, and exactly once
if the step does not fail. -/
def Listener.IsToldOf (l : Listener) (field : Field) (w : World σ)
    (out : Except Failure PUnit × World σ) : Prop :=
  ∃ os, l.Stays os w out.2 ∧ (os.filterMap (Occurrence.noticeTo? l.name)).Sublist [field] ∧
    (out.1 = .ok ⟨⟩ → l.IsTold [field] w.surface os)

/-- An observer that has subscribed once is one of the observers. -/
theorem World.Watches.mem {w : World σ} {l : Listener} (hw : w.Watches l) : l ∈ w.listeners := by
  have hmem : l ∈ w.listeners.filter fun l' => l'.name = l.name := by
    rw [hw.once]
    exact List.mem_singleton_self l
  exact (List.mem_filter.mp hmem).1

namespace Act

/-- An observer stays when it is told itself. -/
theorem stays_tell (field : Field) {w : World σ} {l : Listener} (hw : w.Watches l) :
    l.Stays (l.notice field w.surface w.past) w ((tell field l).exec w).2 := by
  have htold : (w.after (l.notice field w.surface w.past)).Watches l := ⟨hw.once, hw.spared⟩
  rw [exec_tell]
  exact ⟨htold.without (hw.spared l hw.mem field w.surface w.past), rfl, rfl⟩

/-- **An observer who stays is told once.** When a change is announced, it is told about the surface
as it is, unless an observer fails. -/
theorem isToldOf_notify (field : Field) {w : World σ} {l : Listener} (hw : w.Watches l) :
    l.IsToldOf field w ((notify field).exec w) := by
  obtain ⟨before, after, hls, hbefore, -, hafter⟩ := List.filter_eq_cons_iff.mp hw.once
  have hmem {l' : Listener} (hl' : l' ∈ before ∨ l' ∈ after) : l' ∈ w.listeners := by
    rw [hls]
    exact hl'.elim (List.mem_append_left _) fun h => List.mem_append_right _ (.tail l h)
  unfold notify
  rw [exec_bind, exec_get]
  dsimp only
  rw [hls, exec_forM_append, exec_bind]
  -- those in front of the observer are told, then the observer, and then the others
  obtain ⟨os₁, hstays₁, hos₁⟩ := unheard_forM field
    (fun l' hl' => by simpa using hbefore l' hl')
    (fun l' hl' => hw.spared l' (hmem (.inl hl'))) w hw
  cases hexec₁ : (before.forM (tell field)).exec w with
  | mk res₁ w₁ =>
    rw [hexec₁] at hstays₁
    cases res₁ with
    | error f =>
      refine ⟨os₁, hstays₁, ?_, nofun⟩
      rw [Listener.filterMap_noticeTo? hos₁]
      exact List.nil_sublist _
    | ok _ =>
      have hstays₂ := hstays₁.trans (stays_tell field hstays₁.watches)
      rw [hstays₁.surface] at hstays₂
      dsimp only
      rw [exec_bind]
      cases hexec₂ : (tell field l).exec w₁ with
      | mk res₂ w₂ =>
        rw [hexec₂] at hstays₂
        cases res₂ with
        | error f =>
          have hnone : ∀ o ∈ ([] : List Occurrence), o.noticeTo? l.name = none := nofun
          have htold := l.isTold_notice field w.surface w₁.past hos₁ hnone
          rw [List.append_nil] at htold
          exact ⟨_, hstays₂, htold.notices ▸ List.Sublist.refl _, nofun⟩
        | ok _ =>
          obtain ⟨os₃, hstays₃, hos₃⟩ := unheard_forM field
            (fun l' hl' => by simpa using List.filter_eq_nil_iff.mp hafter l' hl')
            (fun l' hl' => hw.spared l' (hmem (.inr hl'))) w₂ hstays₂.watches
          have htold := l.isTold_notice field w.surface w₁.past hos₁ hos₃
          exact ⟨_, hstays₂.trans hstays₃, htold.notices ▸ List.Sublist.refl _, fun _ => htold⟩

end Act

/-! ## Observers that fail -/

namespace World

variable {T : Listener → Prop} {w w' w'' : World σ}

/-- All observers are of a kind. -/
def Admits (T : Listener → Prop) (w : World σ) : Prop := ∀ l ∈ w.listeners, T l

/-- An observer of a kind has failed in between: it was told about a part of the surface, and reacts
by failing to that part of a state with as many lines and images. -/
def HasFailed (T : Listener → Prop) (w w' : World σ) : Prop :=
  ∃ l field s past, T l ∧ (l.react field s past).failure ≠ none ∧ w.past <:+ past ∧
    .notified l.name field s.output.length s.images.length :: past <:+ w'.past

/-- Nobody has failed if no observer ever fails. -/
theorem not_hasFailed (hT : ∀ l, T l → l.NeverFails) : ¬ w.HasFailed T w' := by
  rintro ⟨l, field, s, past, hl, hfails, -, -⟩
  exact hfails (hT l hl field s past)

/-- Whoever has failed before has failed. -/
theorem HasFailed.before (h : w.HasFailed T w') (hpast : w'.past <:+ w''.past) :
    w.HasFailed T w'' := by
  obtain ⟨l, field, s, past, hl, hfails, hsince, htold⟩ := h
  exact ⟨l, field, s, past, hl, hfails, hsince, htold.trans hpast⟩

/-- Whoever fails later has failed. -/
theorem HasFailed.later (hpast : w.past <:+ w'.past) (h : w'.HasFailed T w'') :
    w.HasFailed T w'' := by
  obtain ⟨l, field, s, past, hl, hfails, hsince, htold⟩ := h
  exact ⟨l, field, s, past, hl, hfails, hpast.trans hsince, htold⟩

end World

namespace Act

variable {α β : Type} {T : Listener → Prop}

/-- A step among observers of a kind fails only because one of them does. -/
def FailsByObservers (T : Listener → Prop) (act : Act σ α) : Prop :=
  ∀ w, w.Admits T → (act.exec w).2.Admits T ∧ w.past <:+ (act.exec w).2.past ∧
    ∀ f, (act.exec w).1 = .error f → w.HasFailed T (act.exec w).2

/-- A value never fails. -/
theorem FailsByObservers.pure (x : α) : FailsByObservers T (pure x : Act σ α) :=
  fun _ hT => ⟨hT, List.suffix_rfl, nofun⟩

/-- One step after the other. -/
theorem FailsByObservers.bind {act : Act σ α} {next : α → Act σ β} (hact : FailsByObservers T act)
    (hnext : ∀ x, FailsByObservers T (next x)) : FailsByObservers T (act >>= next) := by
  intro w hT
  obtain ⟨hT₁, hpast₁, hfails₁⟩ := hact w hT
  rw [exec_bind]
  cases hexec : act.exec w with
  | mk res w₁ =>
    rw [hexec] at hT₁ hpast₁ hfails₁
    cases res with
    | error f => exact ⟨hT₁, hpast₁, fun _ _ => hfails₁ f rfl⟩
    | ok x =>
      obtain ⟨hT₂, hpast₂, hfails₂⟩ := hnext x w₁ hT₁
      exact ⟨hT₂, hpast₁.trans hpast₂, fun f hf => (hfails₂ f hf).later hpast₁⟩

/-- The same step for each item of a list. -/
theorem FailsByObservers.forM {items : List α} {act : α → Act σ PUnit}
    (hact : ∀ x ∈ items, FailsByObservers T (act x)) : FailsByObservers T (items.forM act) := by
  induction items with
  | nil => exact .pure _
  | cons x rest ih =>
    change FailsByObservers T (act x >>= fun _ => rest.forM act)
    exact (hact x (by simp)).bind fun _ => ih fun y hy => hact y (by simp [hy])

/-- Telling an observer fails only if the observer does. -/
theorem failsByObservers_tell (field : Field) {l : Listener} (hl : T l) :
    FailsByObservers T (tell field l : Act σ Unit) := by
  intro w hT
  have htold : .notified l.name field w.surface.output.length w.surface.images.length :: w.past <:+
      ((tell field l).exec w).2.past := by
    rw [exec_tell]
    exact ⟨((l.react field w.surface w.past).prints.map .printed).reverse, by
      simp [World.after, Listener.notice]⟩
  refine ⟨fun l' hl' => hT l' ?_, (List.suffix_cons _ _).trans htold, fun f hf => ?_⟩
  · rw [exec_tell] at hl'
    exact (without_sublist _ _).subset hl'
  · refine ⟨l, field, w.surface, w.past, hl, fun hnone => ?_, List.suffix_rfl, htold⟩
    rw [exec_tell, hnone] at hf
    cases hf

/-- Announcing a part fails only if an observer does. -/
theorem failsByObservers_notify (field : Field) :
    FailsByObservers T (notify field : Act σ Unit) := by
  intro w hT
  have hall : FailsByObservers T (w.listeners.forM (tell field) : Act σ PUnit) :=
    .forM fun l hl => failsByObservers_tell field (hT l hl)
  exact hall w hT

end Act

end PushButton
