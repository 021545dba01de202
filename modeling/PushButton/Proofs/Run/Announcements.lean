import PushButton.Proofs.Run.Observers

/-!
# Changes are announced

Every change of the surface is announced part by part. An observer who stays is told about exactly
the parts that the change announces, each of them once, and no other part has changed. So a mirror
that showed the surface as it was shows it as it is.
-/

namespace PushButton

variable {σ : Type}

/-! ## Copying parts -/

namespace Mirror

variable {wording : Json → Text} {s s' : SurfaceState} {m : Mirror} {fields : List Field}

/-- Parts are copied one after the other. -/
theorem copy_append (m : Mirror) (fields fields' : List Field) :
    m.copy wording s (fields ++ fields') = (m.copy wording s fields).copy wording s fields' :=
  List.foldl_append

/-- A mirror that has copied parts has nothing left to copy. -/
theorem pending_copy (hpending : m.pending = none) : (m.copy wording s fields).pending = none := by
  induction fields generalizing m with
  | nil => exact hpending
  | cons field fields ih => exact ih rfl

/-- A mirror shows the parts that it has copied, and the other parts as before. -/
theorem shown_copy (f : Field) : (m.copy wording s fields).shown f =
    if f ∈ fields then wording (s.entry f) else m.shown f := by
  induction fields generalizing m with
  | nil => rfl
  | cons field fields ih =>
    change ((m.put field (wording (s.entry field))).copy wording s fields).shown f = _
    rw [ih]
    by_cases hmem : f ∈ fields
    · simp [hmem]
    · by_cases hfield : f = field
      · subst hfield
        simp [hmem, put]
      · simp [hmem, hfield, put]

/-- A mirror of a state shows another one when it has copied all parts in which they differ. -/
theorem copy_of (h : ∀ field ∉ fields, s'.entry field = s.entry field) :
    (of wording s).copy wording s' fields = of wording s' := by
  ext1
  · funext f
    rw [shown_copy]
    by_cases hmem : f ∈ fields
    · rw [if_pos hmem]
      rfl
    · rw [if_neg hmem]
      exact congrArg wording (h f hmem).symm
  · exact pending_copy rfl

end Mirror

/-! ## What an observer has learnt -/

namespace World

/-- What has happened since a moment. -/
theorem since_eq {w w' : World σ} {os : List Occurrence} (hpast : w'.past = os.reverse ++ w.past) :
    w'.since w.past.length = os := by
  unfold since
  rw [hpast, List.length_append, Nat.add_sub_cancel_right, List.take_left', List.reverse_reverse]
  rfl

end World

namespace Listener

/-- An observer has stayed and was told about some parts, in their order and once each. If it is a
mirror that showed the surface as it was, it shows the surface as it is. -/
structure IsInformed (l : Listener) (fields : List Field) (w w' : World σ) : Prop where
  /-- The observer has stayed. -/
  watches : w'.Watches l
  /-- Nothing that had happened is forgotten. -/
  past : w'.past = (w'.since w.past.length).reverse ++ w.past
  /-- The observer was told about the parts. -/
  notices : (w'.since w.past.length).filterMap (Occurrence.noticeTo? l.name) = fields
  /-- A mirror of the surface as it was is one of the surface as it is. -/
  mirror : ∀ wording : Json → Text, l = Mirror.listener l.name wording →
    (Mirror.of wording w.surface).after l.name (w'.since w.past.length) =
      Mirror.of wording w'.surface

variable {l : Listener} {fields fields' : List Field} {s : SurfaceState} {os os' : List Occurrence}
  {w w' w'' : World σ}

/-- Nothing tells an observer about no part. -/
theorem IsTold.nil : l.IsTold [] s [] := ⟨rfl, fun _ _ _ _ => rfl⟩

/-- An observer is told about some parts, and then about others. -/
theorem IsTold.append (h : l.IsTold fields s os) (h' : l.IsTold fields' s os') :
    l.IsTold (fields ++ fields') s (os ++ os') where
  notices := by rw [List.filterMap_append, h.notices, h'.notices]
  mirror wording m hl hpending := by
    rw [Mirror.after_append, h.mirror wording m hl hpending,
      h'.mirror wording _ hl (Mirror.pending_copy hpending), Mirror.copy_append]

/-- What has happened informs an observer. -/
theorem IsInformed.of_past (hwatches : w'.Watches l) (hpast : w'.past = os.reverse ++ w.past)
    (hnotices : os.filterMap (Occurrence.noticeTo? l.name) = fields)
    (hmirror : ∀ wording : Json → Text, l = Mirror.listener l.name wording →
      (Mirror.of wording w.surface).after l.name os = Mirror.of wording w'.surface) :
    l.IsInformed fields w w' := by
  refine ⟨hwatches, ?_, ?_, ?_⟩
  all_goals rw [World.since_eq hpast]
  · exact hpast
  · exact hnotices
  · exact hmirror

/-- An observer is informed, and then again. -/
theorem IsInformed.trans (h : l.IsInformed fields w w') (h' : l.IsInformed fields' w' w'') :
    l.IsInformed (fields ++ fields') w w'' := by
  have hpast : w''.past =
      (w'.since w.past.length ++ w''.since w'.past.length).reverse ++ w.past := by
    rw [List.reverse_append, List.append_assoc, ← h.past, ← h'.past]
  refine .of_past h'.watches hpast ?_ ?_
  · rw [List.filterMap_append, h.notices, h'.notices]
  · intro wording hl
    rw [Mirror.after_append, h.mirror wording hl, h'.mirror wording hl]

end Listener

namespace World

/-- Some parts of the surface were announced. -/
structure Announces (fields : List Field) (w w' : World σ) : Prop where
  /-- The surface is as it was. -/
  surface : w'.surface = w.surface
  /-- The observers who have stayed were told. -/
  told : ∀ l, w.Watches l → ∃ os, l.Stays os w w' ∧ l.IsTold fields w.surface os

variable {fields fields' : List Field} {w w' w'' : World σ}

/-- Parts are announced, and then others. -/
theorem Announces.trans (h : w.Announces fields w') (h' : w'.Announces fields' w'') :
    w.Announces (fields ++ fields') w'' where
  surface := h'.surface.trans h.surface
  told l hw := by
    obtain ⟨os, hstays, htold⟩ := h.told l hw
    obtain ⟨os', hstays', htold'⟩ := h'.told l hstays.watches
    rw [h.surface] at htold'
    exact ⟨os ++ os', hstays.trans hstays', htold.append htold'⟩

/-- When the surface has changed in some parts and these are announced, an observer who stays is
informed about them. -/
theorem Announces.isInformed {s : SurfaceState} (h : Announces fields { w with surface := s } w')
    (hs : ∀ field ∉ fields, s.entry field = w.surface.entry field) {l : Listener}
    (hw : w.Watches l) : l.IsInformed fields w w' := by
  obtain ⟨os, hstays, htold⟩ := h.told l ⟨hw.once, hw.spared⟩
  refine .of_past hstays.watches hstays.past htold.notices fun wording hl => ?_
  rw [htold.mirror wording _ hl rfl, Mirror.copy_of hs, hstays.surface]

end World

/-! ## Announcing parts -/

namespace Act

/-- A part is announced, unless an observer fails. -/
theorem announces_notify {field : Field} {w w' : World σ}
    (hexec : (notify field).exec w = (.ok ⟨⟩, w')) : w.Announces [field] w' := by
  have hquiet := (quiet_notify field).of_exec hexec
  refine ⟨by rw [← hquiet.rest], fun l hw => ?_⟩
  obtain ⟨os, hstays, -, htold⟩ := isToldOf_notify field hw
  rw [hexec] at hstays htold
  exact ⟨os, hstays, htold rfl⟩

/-- Parts are announced, unless an observer fails. The induction is on the parts. -/
theorem announces_forM {fields : List Field} {w w' : World σ}
    (hexec : (fields.forM notify).exec w = (.ok ⟨⟩, w')) : w.Announces fields w' := by
  induction fields generalizing w with
  | nil =>
    obtain ⟨-, rfl⟩ := Prod.mk.inj hexec
    exact ⟨rfl, fun l hw => ⟨[], ⟨hw, rfl, rfl⟩, .nil⟩⟩
  | cons field fields ih =>
    change (notify field >>= fun _ => fields.forM notify).exec w = _ at hexec
    rw [exec_bind] at hexec
    cases hfirst : (notify field).exec w with
    | mk res w₁ =>
      rw [hfirst] at hexec
      cases res with
      | error f => cases hexec
      | ok _ => exact (announces_notify hfirst).trans (ih hexec)

/-- No announcement of parts fails in a calm world. -/
theorem exists_exec_forM_notify (fields : List Field) {w : World σ} (hcalm : w.IsCalm) :
    ∃ w', (fields.forM notify).exec w = (.ok ⟨⟩, w') := by
  induction fields generalizing w with
  | nil => exact ⟨w, rfl⟩
  | cons field fields ih =>
    obtain ⟨w₁, hfirst⟩ := exists_exec_notify field hcalm
    have hquiet := (quiet_notify field).of_exec hfirst
    obtain ⟨w₂, hrest⟩ := ih (hcalm.of_sublist hquiet.listeners)
    refine ⟨w₂, ?_⟩
    change (notify field >>= fun _ => fields.forM notify).exec w = _
    rw [exec_bind, hfirst]
    exact hrest

end Act

/-! ## Changes of the surface -/

/-- A change of the surface. -/
inductive SurfaceChange where
  /-- A line is put out. -/
  | putLine (line : Text)
  /-- An image is put out. -/
  | putImage (url : Text)
  /-- The button grows. -/
  | grow (step : Float)
  /-- The button takes a colour. -/
  | paint (color : Text)
  /-- The button is disabled. -/
  | disable
  /-- The lines and the images are taken away. -/
  | clear
  /-- The surface is made anew. -/
  | remake
deriving DecidableEq, Repr

namespace SurfaceChange

/-- What a change does in a world. -/
def act : SurfaceChange → Act σ Unit
  | .putLine line => Act.putLine line
  | .putImage url => Act.putImage url
  | .grow step => Act.grow step
  | .paint color => Act.paint color
  | .disable => Act.disable
  | .clear => Act.clear
  | .remake => Act.remake

/-- What becomes of the surface. -/
def update : SurfaceChange → SurfaceState → SurfaceState
  | .putLine line, s => { s with output := s.output ++ [line] }
  | .putImage url, s => { s with images := s.images ++ [url] }
  | .grow step, s => { s with scale := s.scale + step }
  | .paint color, s => { s with color := color }
  | .disable, s => { s with disabled := true }
  | .clear, s => s.cleared
  | .remake, s => s.remade

/-- The parts that are announced. -/
def fields : SurfaceChange → List Field
  | .putLine _ => [.output]
  | .putImage _ => [.images]
  | .grow _ => [.scale]
  | .paint _ => [.color]
  | .disable => [.disabled]
  | .clear => [.output, .images]
  | .remake => Field.all

/-- Every part that changes is announced. -/
theorem entry_update (c : SurfaceChange) (s : SurfaceState) {field : Field}
    (hfield : field ∉ c.fields) : (c.update s).entry field = s.entry field := by
  cases c with
  | putLine | putImage | grow | paint | disable | clear | remake =>
    cases field with
    | output | images | scale | color | disabled =>
      first
      | rfl
      | exact (hfield (by simp [fields, Field.all])).elim

/-- A change updates the surface and announces the parts. -/
theorem exec_act (c : SurfaceChange) (w : World σ) :
    c.act.exec w =
      (c.fields.forM Act.notify).exec { w with surface := c.update w.surface } := by
  have hone (field : Field) (c : SurfaceChange) : (Act.change field c.update).exec w =
      (List.forM [field] Act.notify).exec { w with surface := c.update w.surface } := by
    change (Act.notify field).exec _ = (Act.notify field >>= fun _ => pure ⟨⟩).exec _
    rw [bind_pure_unit]
  cases c with
  | putLine line => exact hone .output (.putLine line)
  | putImage url => exact hone .images (.putImage url)
  | grow step => exact hone .scale (.grow step)
  | paint color => exact hone .color (.paint color)
  | disable => exact hone .disabled .disable
  | clear =>
    change (Act.change .output SurfaceState.cleared >>= fun _ => Act.notify .images).exec w =
      (Act.notify .output >>= fun _ => Act.notify .images >>= fun _ => pure ⟨⟩).exec _
    rw [bind_pure_unit, Act.exec_bind, Act.exec_bind]
    rfl
  | remake => rfl

/-- Behind the update of the surface a change respects what every announcement respects. -/
theorem respects_act {R : World σ → World σ → Prop} [Act.Frame R]
    (hnotify : ∀ field, Act.Respects R (Act.notify field : Act σ Unit)) (c : SurfaceChange)
    (w : World σ) : R { w with surface := c.update w.surface } (c.act.exec w).2 := by
  have hall : Act.Respects R (c.fields.forM Act.notify : Act σ PUnit) :=
    .forM fun field _ => hnotify field
  rw [exec_act]
  exact hall _

/-- A change is quiet behind the update of the surface. -/
theorem quiet_act (c : SurfaceChange) (w : World σ) :
    World.Quiet { w with surface := c.update w.surface } (c.act.exec w).2 :=
  respects_act Act.quiet_notify c w

/-- A change updates the surface, also when an observer fails. -/
theorem surface_act (c : SurfaceChange) (w : World σ) :
    (c.act.exec w).2.surface = c.update w.surface :=
  congrArg World.surface (c.quiet_act w).rest

end SurfaceChange

/-- The surface was changed, change by change, and the observers of a kind who stay were informed
about the parts that these changes announce. -/
structure World.Informs (S : Listener → Prop) (cs : List SurfaceChange) (w w' : World σ) :
    Prop where
  /-- The surface is what the changes have made of it. -/
  surface : w'.surface = cs.foldl (fun s c => c.update s) w.surface
  /-- The observers were informed. -/
  informed : ∀ l, S l → w.Watches l → l.IsInformed (cs.flatMap SurfaceChange.fields) w w'

/-- The surface is changed, and then again. -/
theorem World.Informs.trans {S : Listener → Prop} {cs cs' : List SurfaceChange} {w w' w'' : World σ}
    (h : w.Informs S cs w') (h' : w'.Informs S cs' w'') : w.Informs S (cs ++ cs') w'' where
  surface := by rw [h'.surface, h.surface, List.foldl_append]
  informed l hl hw := by
    have hfirst := h.informed l hl hw
    rw [List.flatMap_append]
    exact hfirst.trans (h'.informed l hl hfirst.watches)

namespace SurfaceChange

variable (c : SurfaceChange) {w w' : World σ}

/-- **A change informs everyone.** A change of the surface informs the observers who stay about the
parts that it announces, unless an observer fails. -/
theorem informs {S : Listener → Prop} (hexec : c.act.exec w = (.ok ⟨⟩, w')) :
    w.Informs S [c] w' := by
  rw [exec_act] at hexec
  have hannounces := Act.announces_forM hexec
  refine ⟨hannounces.surface, fun l _ hw => ?_⟩
  rw [List.flatMap_singleton]
  exact hannounces.isInformed (fun _ hfield => c.entry_update w.surface hfield) hw

/-- A change of the surface succeeds in a calm world. -/
theorem exists_exec_act (hcalm : w.IsCalm) : ∃ w', c.act.exec w = (.ok ⟨⟩, w') := by
  have hupdated : World.IsCalm { w with surface := c.update w.surface } := hcalm
  rw [exec_act]
  exact Act.exists_exec_forM_notify c.fields hupdated

/-- A change of the surface fails only if an observer does. -/
theorem failsByObservers_act {T : Listener → Prop} :
    Act.FailsByObservers T (c.act : Act σ Unit) := by
  intro w hT
  have hall : Act.FailsByObservers T (c.fields.forM Act.notify : Act σ PUnit) :=
    .forM fun field _ => Act.failsByObservers_notify field
  rw [exec_act]
  exact hall { w with surface := c.update w.surface } hT

end SurfaceChange

end PushButton
