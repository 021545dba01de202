import PushButton.Proofs.Host.Discretion
import PushButton.Proofs.Run.Upkeep

/-!
# Observers are never stale

Whatever the runs on a surface do changes the surface by changes that are announced. So all that is
done with the surface, with its observers and with the runs keeps the observers who stay informed,
until one of them fails: they are told about the parts that were changed, once for every change, and
a mirror that showed the surface when it began shows it at every moment.
-/

namespace PushButton

variable {σ : Type} {T S : Listener → Prop}

/-! ## Keeping everyone informed -/

/-- Among observers of a kind, one of them has failed in between, or the surface was changed by
changes about which those who stay were informed. -/
def World.KeepsInformed (T S : Listener → Prop) (w w' : World σ) : Prop :=
  w.Admits T → w'.Admits T ∧ w.past <:+ w'.past ∧ (w.HasFailed T w' ∨ ∃ cs, w.Informs S cs w')

namespace World.KeepsInformed

/-- Silent things keep everyone informed, while the surface and the observers are as they were. -/
theorem of_silent {w w' : World σ} {os : List Occurrence} (hsurface : w'.surface = w.surface)
    (hlisteners : w'.listeners = w.listeners) (hpast : w'.past = os.reverse ++ w.past)
    (hos : AreSilent os) : w.KeepsInformed T S w' := by
  refine fun hT => ⟨fun l hl => hT l (hlisteners ▸ hl), ⟨os.reverse, hpast.symm⟩,
    .inr ⟨[], hsurface, fun l _ hw => ?_⟩⟩
  have hunheard : ∀ o ∈ os, o.noticeTo? l.name = none := fun o ho => hos o ho l.name
  refine .of_past ⟨hlisteners ▸ hw.once, hlisteners ▸ hw.spared⟩ hpast
    (Listener.filterMap_noticeTo? hunheard) fun wording _ => ?_
  rw [Mirror.after_of_unheard rfl hunheard, hsurface]

instance : Act.Frame (World.KeepsInformed (σ := σ) T S) where
  refl w := of_silent rfl rfl rfl .nil
  trans h h' hT := by
    obtain ⟨hT', hpast, hinforms⟩ := h hT
    obtain ⟨hT'', hpast', hinforms'⟩ := h' hT'
    refine ⟨hT'', hpast.trans hpast', ?_⟩
    obtain hfailed | ⟨cs, hinforms⟩ := hinforms
    · exact .inl (hfailed.before hpast')
    · obtain hfailed | ⟨cs', hinforms'⟩ := hinforms'
      · exact .inl (hfailed.later hpast)
      · exact .inr ⟨cs ++ cs', hinforms.trans hinforms'⟩

end World.KeepsInformed

/-- A change of the surface keeps everyone informed. -/
theorem Act.keepsInformed_change (c : SurfaceChange) :
    Respects (World.KeepsInformed T S) (c.act : Act σ Unit) := by
  intro w hT
  obtain ⟨hT', hpast, hfailed⟩ := c.failsByObservers_act w hT
  refine ⟨hT', hpast, ?_⟩
  cases hexec : c.act.exec w with
  | mk res w' =>
    rw [hexec] at hfailed
    cases res with
    | error f => exact .inl (hfailed f rfl)
    | ok _ => exact .inr ⟨[c], c.informs hexec⟩

/-- Runs keep everyone informed. -/
instance : Upkeep (World.KeepsInformed (σ := σ) T S) where
  change := Act.keepsInformed_change
  aside os hsurface hlisteners hpast hos := by
    refine .of_silent hsurface hlisteners hpast fun o ho name => ?_
    cases o with
    | logged | slept => rfl
    | notified | asked | called | printed => cases hos _ ho

/-- A discreet host keeps everyone informed. -/
instance {h : Host σ} [h.IsDiscreet] : h.KeepsUp (World.KeepsInformed T S) where
  ask r w := .of_silent rfl rfl rfl (Host.IsDiscreet.ask r w.host)
  settle r w := .of_silent rfl rfl rfl (Host.IsDiscreet.settle r w.host)
  abandon r w := .of_silent rfl rfl rfl (Host.IsDiscreet.abandon r w.host)

namespace Traffic

/-! ## Whatever is done -/

/-- What is done with a surface, with its observers and with the runs on it. -/
inductive Operation where
  /-- The surface is changed. -/
  | change (c : SurfaceChange)
  /-- An observer subscribes. -/
  | subscribe (l : Listener)
  /-- The first subscription of a name ends. -/
  | unsubscribe (name : Text)
  /-- A complete run is made. -/
  | run (workflow : Option Workflow)
  /-- A turn is taken by the runs that overlap. -/
  | turn (turn : Turn)

namespace Operation

/-- An observer subscribes. -/
def brings (l : Listener) : Operation → Prop
  | .subscribe l' => l = l'
  | .change _ | .unsubscribe _ | .run _ | .turn _ => False

/-- The subscription of a name is left alone: no other observer of this name comes and none that
would end the subscription, nor is it ended. -/
def Leaves (name : Text) : Operation → Prop
  | .subscribe l => l.name ≠ name ∧ l.Spares name
  | .unsubscribe other => other ≠ name
  | .change _ | .run _ | .turn _ => True

end Operation

/-- Something is done. -/
def perform (h : Host σ) (t : Traffic σ) : Operation → Traffic σ
  | .change c => { t with world := (c.act.exec t.world).2 }
  | .subscribe l => { t with world := ((Act.subscribe l).exec t.world).2 }
  | .unsubscribe name => { t with world := ((Act.unsubscribe name).exec t.world).2 }
  | .run workflow => { t with world := ((Run.complete h workflow).exec t.world).2 }
  | .turn turn => t.take h turn

/-- One thing is done after the other. -/
def performAll (h : Host σ) (t : Traffic σ) (ops : List Operation) : Traffic σ :=
  ops.foldl (perform h) t

end Traffic

namespace Traffic

/-- What is done keeps the observers informed that it leaves alone. -/
theorem keepsInformed_perform {h : Host σ} [h.IsDiscreet] (t : Traffic σ) {op : Operation}
    (hcomes : ∀ l, op.brings l → T l) (hleaves : ∀ l, S l → op.Leaves l.name) :
    t.world.KeepsInformed T S (t.perform h op).world := by
  have hnothing {w : World σ} : w.past = ([] : List Occurrence).reverse ++ w.past := rfl
  cases op with
  | change c => exact Act.keepsInformed_change c t.world
  | run workflow => exact Run.upkeep_complete h workflow t.world
  | turn turn => exact t.upkeep_take turn
  | subscribe l' =>
    refine fun hT => ⟨fun l hl => ?_, List.suffix_rfl, .inr ⟨[], rfl, fun l hl hw => ?_⟩⟩
    · obtain hl | hl := List.mem_append.mp hl
      · exact hT l hl
      · exact hcomes l (List.mem_singleton.mp hl)
    · obtain ⟨hname, hspares⟩ := hleaves l hl
      have honce : (t.world.listeners ++ [l']).filter (fun l'' => l''.name = l.name) = [l] := by
        rw [List.filter_append, hw.once, List.filter_cons_of_neg (by simpa using hname)]
        rfl
      refine .of_past ⟨honce, fun l'' hl'' => ?_⟩ hnothing rfl fun _ _ => rfl
      obtain hl'' | hl'' := List.mem_append.mp hl''
      · exact hw.spared l'' hl''
      · rw [List.mem_singleton.mp hl'']
        exact hspares
  | unsubscribe name =>
    refine fun hT => ⟨fun l hl => hT l ((Act.without_sublist _ _).subset hl), List.suffix_rfl,
      .inr ⟨[], rfl, fun l hl hw => ?_⟩⟩
    have hname : l.name ∉ [name] := by simpa using (hleaves l hl).symm
    exact .of_past (hw.without hname) hnothing rfl fun _ _ => rfl

/-- Whatever is done keeps the observers informed that are left alone. The induction is on what is
done. -/
theorem keepsInformed_performAll {h : Host σ} [h.IsDiscreet] {ops : List Operation}
    (hcomes : ∀ l, ∀ op ∈ ops, op.brings l → T l)
    (hleaves : ∀ l, S l → ∀ op ∈ ops, op.Leaves l.name) (t : Traffic σ) :
    t.world.KeepsInformed T S (t.performAll h ops).world := by
  induction ops generalizing t with
  | nil => exact Act.Frame.refl _
  | cons op ops ih =>
    have hfirst : t.world.KeepsInformed T S (t.perform h op).world :=
      t.keepsInformed_perform (fun l => hcomes l op (by simp)) fun l hl => hleaves l hl op (by simp)
    exact Act.Frame.trans hfirst (ih (fun l op' hop' => hcomes l op' (by simp [hop']))
      (fun l hl op' hop' => hleaves l hl op' (by simp [hop'])) (t.perform h op))

/-- The observers that there are, and those that come. -/
def Operation.Observes (t : Traffic σ) (ops : List Operation) (l : Listener) : Prop :=
  l ∈ t.world.listeners ∨ ∃ op ∈ ops, op.brings l

/-- **Observers are never stale.** An observer has subscribed once, and its subscription is never
ended, while the surface is changed, other observers come and go, also when they are told something,
and runs are made or overlap. Whenever a part of the surface is announced, this observer is told
about it once, unless an observer fails, which breaks the announcement off; and a change of the
surface fails only if an observer does. So at every moment until an observer has failed, the surface
is what a row of changes has made of it, the observer was told about the parts that these changes
announce, once for each, and a mirror that showed the surface when all this began shows every part
of it as it is. -/
theorem keeps_observers_informed (h : Host σ) [h.IsDiscreet] :
    (∀ (field : Field) (w : World σ) (l : Listener), w.Watches l →
      l.IsToldOf field w ((Act.notify field).exec w)) ∧
    (∀ (c : SurfaceChange) (w : World σ),
      (w.IsCalm → (c.act.exec w).1 = .ok ⟨⟩) ∧
      ((c.act.exec w).1 = .ok ⟨⟩ → w.Informs (fun _ => True) [c] (c.act.exec w).2)) ∧
    (∀ (t : Traffic σ) (ops : List Operation),
      t.world.HasFailed (Operation.Observes t ops) (t.performAll h ops).world ∨
      ∃ cs, t.world.Informs (fun l => ∀ op ∈ ops, op.Leaves l.name) cs
        (t.performAll h ops).world) ∧
    ∀ s : SurfaceState,
      s.snapshot = .object (Field.all.map fun field => (field.name, s.entry field)) := by
  refine ⟨fun field w l hw => Act.isToldOf_notify field hw, fun c w => ⟨fun hcalm => ?_, ?_⟩,
    fun t ops => ?_, SurfaceState.snapshot_eq⟩
  · obtain ⟨w', hexec⟩ := c.exists_exec_act hcalm
    rw [hexec]
  · exact fun hok => c.informs (Prod.ext hok rfl)
  · have hkeeps : t.world.KeepsInformed (Operation.Observes t ops)
        (fun l => ∀ op ∈ ops, op.Leaves l.name) (t.performAll h ops).world :=
      keepsInformed_performAll (fun l op hop hbrings => .inr ⟨op, hop, hbrings⟩)
        (fun _ hl => hl) t
    exact (hkeeps fun l hl => .inl hl).2.2

/-- A mirror shows the lines of a run that has gone by while the dialog of another run waits,
although the observers around it have left when they were told about the first change. -/
theorem keeps_mirror_informed_of_dialog :
    let wording : Json → Text := fun
      | .array lines => Text.ofNat lines.length
      | .text t => t
      | _ => []
    let shows : Listener := Mirror.listener "mirror" wording
    let leaver : Listener := ⟨"leaver", fun _ _ _ => { unsubscribes := ["leaver", "friend"] }⟩
    let friend : Listener := ⟨"friend", fun _ _ _ => {}⟩
    let alert : Workflow := ⟨"Go", [⟨"a1", .alert, none⟩]⟩
    let lines : Workflow := ⟨"On", [⟨"b1", .showText, none⟩, ⟨"b2", .showText, none⟩]⟩
    let w : World HostScript := {
      surface := .fresh, listeners := [leaver, shows, friend], shelf := ⟨.memory [], ⟨[], [], []⟩⟩
      host := { suspended := ["alert"] }, sequencer := .paced 5 }
    let ops : List Operation := [.change (.paint "red"), .subscribe friend, .unsubscribe "friend",
      .turn (.start (some alert) false), .turn (.resume 0), .turn (.resume 0), .run (some lines)]
    let t := performAll HostScript.host ⟨w, []⟩ ops
    let m := (Mirror.of wording w.surface).after "mirror" (t.world.since 0)
    w.Watches shows ∧ (∀ op ∈ ops, op.Leaves "mirror") ∧
      t.world.listeners.length = 1 ∧ t.world.sequencer.status = "running" ∧
      m = Mirror.of wording t.world.surface ∧ m.shown .output = "2" ∧ m.shown .color = "red" := by
  intro wording shows leaver friend alert lines w ops t m
  have hlisteners {P : Listener → Prop} (hleaver : P leaver) (hshows : P shows)
      (hfriend : P friend) : ∀ l ∈ w.listeners, P l := by
    simpa [w] using ⟨hleaver, hshows, hfriend⟩
  have hcalm : w.IsCalm := hlisteners (fun _ _ _ => rfl) (fun _ _ _ => rfl) fun _ _ _ => rfl
  have hfriends : ("mirror" : Text) ∉ [("leaver" : Text), "friend"] := by decide
  have hspares : friend.Spares "mirror" := fun _ _ _ => List.not_mem_nil
  have hspared : ∀ l ∈ w.listeners, l.Spares "mirror" :=
    hlisteners (fun _ _ _ => hfriends) (fun _ _ _ => List.not_mem_nil) hspares
  have hwatches : w.Watches shows := ⟨rfl, hspared⟩
  have hleaves : ∀ op ∈ ops, op.Leaves "mirror" := by
    have hname : friend.name ≠ "mirror" := by decide
    simpa [ops, Operation.Leaves] using ⟨⟨hname, hspares⟩, hname⟩
  have hbrings : ∀ op ∈ ops, ∀ l, op.brings l → l = friend := by
    simp [ops, Operation.brings]
  have hnever (l : Listener) (hl : Operation.Observes ⟨w, []⟩ ops l) : l.NeverFails := by
    obtain hl | ⟨op, hop, hl⟩ := hl
    · exact hcalm l hl
    · rw [hbrings op hop l hl]
      exact fun _ _ _ => rfl
  obtain ⟨-, -, hall, -⟩ := keeps_observers_informed HostScript.host
  obtain ⟨cs, hinforms⟩ := (hall ⟨w, []⟩ ops).resolve_left (World.not_hasFailed hnever)
  have hinformed := hinforms.informed shows hleaves hwatches
  have hmirror : m = Mirror.of wording t.world.surface := hinformed.mirror wording rfl
  have hleft : t.world.listeners.length = 1 ∧ t.world.sequencer.status = "running" := by
    decide +kernel
  have hshown : t.world.surface.output.length = 2 ∧ t.world.surface.color = "red" := by
    decide +kernel
  have houtput (s : SurfaceState) :
      (Mirror.of wording s).shown .output = Text.ofNat s.output.length :=
    congrArg Text.ofNat (List.length_map _)
  have hcolor (s : SurfaceState) : (Mirror.of wording s).shown .color = s.color := rfl
  refine ⟨hwatches, hleaves, hleft.1, hleft.2, hmirror, ?_, ?_⟩
  · rw [hmirror, houtput, hshown.1]
    decide
  · rw [hmirror, hcolor, hshown.2]

end Traffic

end PushButton
