import PushButton.Proofs.Run.Exec

/-!
# What steps put out

Telling observers and making records leave everything as it is but what has happened, and the
observers that have ended their subscriptions. So a step that puts out lines and images puts these
out even when an observer makes it fail, and it never touches what is known about the runs.
-/

namespace PushButton

variable {σ α : Type}

/-! ## Quiet steps -/

/-- Nothing has changed except that something has happened and that observers have left. -/
structure World.Quiet (w w' : World σ) : Prop where
  /-- Everything else is as it was. -/
  rest : { w' with listeners := w.listeners, past := w.past } = w
  /-- No observer has come. -/
  listeners : w'.listeners.Sublist w.listeners

instance : Act.Frame (World.Quiet (σ := σ)) where
  refl w := ⟨rfl, .refl _⟩
  trans := by
    intro w w' w'' h h'
    refine ⟨?_, h'.listeners.trans h.listeners⟩
    have hrest := h'.rest
    rw [← h.rest, ← hrest]

namespace Act

/-- Something that happens is quiet. -/
theorem quiet_occur (o : Occurrence) : Respects World.Quiet (occur o : Act σ Unit) :=
  Respects.modify fun _ => ⟨rfl, .refl _⟩

/-- A record is quiet. -/
theorem quiet_log (level : Level) (logger message : Text) (context : Context) :
    Respects World.Quiet (log level logger message context : Act σ Unit) := quiet_occur _

/-- When subscriptions end, some observers are left. -/
theorem without_sublist (names : List Text) (ls : List Listener) :
    (without names ls).Sublist ls := by
  unfold without
  induction names generalizing ls with
  | nil => exact .refl ls
  | cons name rest ih => exact (ih _).trans List.eraseP_sublist

/-- Telling an observer is quiet. -/
theorem quiet_tell (field : Field) (l : Listener) :
    Respects World.Quiet (tell field l : Act σ Unit) := by
  refine Respects.get.bind fun w => (quiet_occur _).bind fun _ => ?_
  refine (Respects.forM fun t _ => quiet_occur _).bind fun _ => ?_
  refine (Respects.modify ?_).bind fun _ => ?_
  · exact fun w' => ⟨rfl, without_sublist _ _⟩
  · split
    · exact Respects.throw _
    · exact Respects.pure _

/-- Telling all observers is quiet. -/
theorem quiet_notify (field : Field) : Respects World.Quiet (notify field : Act σ Unit) :=
  Respects.get.bind fun _ => Respects.forM fun l _ => quiet_tell field l

end Act

/-! ## Lines and images -/

/-- Lines and images were put out; what is known about the runs is as it was, and no observer has
come. -/
structure World.Puts (lines images : List Text) (w w' : World σ) : Prop where
  /-- The lines have come to the output. -/
  output : w'.surface.output = w.surface.output ++ lines
  /-- The images have come to the output. -/
  images : w'.surface.images = w.surface.images ++ images
  /-- The runs are as they were. -/
  sequencer : w'.sequencer = w.sequencer
  /-- No observer has come. -/
  listeners : w'.listeners.Sublist w.listeners

/-- A quiet step puts out nothing. -/
theorem World.Quiet.puts {w w' : World σ} (h : w.Quiet w') : World.Puts [] [] w w' := by
  have hsurface : w'.surface = w.surface := by rw [← h.rest]
  have hsequencer : w'.sequencer = w.sequencer := by rw [← h.rest]
  refine ⟨?_, ?_, hsequencer, h.listeners⟩
  · rw [hsurface, List.append_nil]
  · rw [hsurface, List.append_nil]

/-- What is put out after nothing was put out is all that is put out. -/
theorem World.Puts.of_nothing {lines images : List Text} {w w' w'' : World σ}
    (h : World.Puts [] [] w w') (h' : World.Puts lines images w' w'') :
    World.Puts lines images w w'' := by
  refine ⟨?_, ?_, h'.sequencer.trans h.sequencer, h'.listeners.trans h.listeners⟩
  · rw [h'.output, h.output, List.append_nil]
  · rw [h'.images, h.images, List.append_nil]

/-- What is put out before nothing is put out is all that is put out. -/
theorem World.Puts.then_nothing {lines images : List Text} {w w' w'' : World σ}
    (h : World.Puts lines images w w') (h' : World.Puts [] [] w' w'') :
    World.Puts lines images w w'' := by
  refine ⟨?_, ?_, h'.sequencer.trans h.sequencer, h'.listeners.trans h.listeners⟩
  · rw [h'.output, h.output, List.append_nil]
  · rw [h'.images, h.images, List.append_nil]

instance : Act.Frame (World.Puts (σ := σ) [] []) where
  refl w := ⟨by simp, by simp, rfl, .refl _⟩
  trans h h' := h.then_nothing h'

namespace Act

/-- A quiet step puts out nothing. -/
theorem Respects.puts {act : Act σ α} (h : Respects World.Quiet act) :
    Respects (World.Puts [] []) act := fun w => (h w).puts

/-- A part of the surface is changed that is neither the lines nor the images. -/
theorem puts_change (field : Field) {f : SurfaceState → SurfaceState}
    (hf : ∀ s, (f s).output = s.output ∧ (f s).images = s.images) :
    Respects (World.Puts [] []) (change field f : Act σ Unit) := by
  refine (Respects.modify ?_).bind fun _ => (quiet_notify field).puts
  intro w
  exact ⟨by simp [hf], by simp [hf], rfl, .refl _⟩

/-- The button grows, and nothing is put out. -/
theorem puts_grow (step : Float) : Respects (World.Puts [] []) (grow step : Act σ Unit) :=
  puts_change .scale fun _ => ⟨rfl, rfl⟩

/-- The button takes a colour, and nothing is put out. -/
theorem puts_paint (color : Text) : Respects (World.Puts [] []) (paint color : Act σ Unit) :=
  puts_change .color fun _ => ⟨rfl, rfl⟩

/-- The button is disabled, and nothing is put out. -/
theorem puts_disable : Respects (World.Puts [] []) (disable : Act σ Unit) :=
  puts_change .disabled fun _ => ⟨rfl, rfl⟩

/-- A line is put out, even if an observer fails. -/
theorem puts_putLine (line : Text) :
    Respects (World.Puts [line] []) (putLine line : Act σ Unit) := by
  refine (Respects.modify ?_).bind_of World.Puts.then_nothing fun _ => (quiet_notify .output).puts
  exact fun w => ⟨rfl, by simp, rfl, .refl _⟩

/-- An image is put out, even if an observer fails. -/
theorem puts_putImage (url : Text) :
    Respects (World.Puts [] [url]) (putImage url : Act σ Unit) := by
  refine (Respects.modify ?_).bind_of World.Puts.then_nothing fun _ => (quiet_notify .images).puts
  exact fun w => ⟨by simp, rfl, rfl, .refl _⟩

/-- Waiting puts out nothing. -/
theorem puts_sleep (ms : Nat) : Respects (World.Puts [] []) (sleep ms : Act σ Unit) := by
  unfold sleep
  split
  · refine (Respects.modify ?_).bind fun _ => (quiet_occur _).puts
    exact fun w => ⟨(List.append_nil _).symm, (List.append_nil _).symm, rfl, .refl _⟩
  · exact Respects.pure _

/-- Drawing a random number puts out nothing. -/
theorem puts_draw (bound : Nat) : Respects (World.Puts [] []) (draw bound : Act σ Nat) :=
  fun _ => ⟨(List.append_nil _).symm, (List.append_nil _).symm, rfl, .refl _⟩

/-- Storing a text puts out nothing. -/
theorem puts_store (key value : Text) :
    Respects (World.Puts [] []) (store key value : Act σ (Except StorageError Unit)) :=
  fun _ => ⟨(List.append_nil _).symm, (List.append_nil _).symm, rfl, .refl _⟩

/-- Asking the host puts out nothing. -/
theorem puts_ask (h : Host σ) (r : Request) : Respects (World.Puts [] []) (ask h r) :=
  fun _ => ⟨(List.append_nil _).symm, (List.append_nil _).symm, rfl, .refl _⟩

/-- Settling a request puts out nothing. -/
theorem puts_settle (h : Host σ) (r : Request) : Respects (World.Puts [] []) (settle h r) :=
  fun _ => ⟨(List.append_nil _).symm, (List.append_nil _).symm, rfl, .refl _⟩

/-- Giving up a request puts out nothing. -/
theorem puts_abandon (h : Host σ) (r : Request) : Respects (World.Puts [] []) (abandon h r) :=
  fun _ => ⟨(List.append_nil _).symm, (List.append_nil _).symm, rfl, .refl _⟩

end Act

end PushButton
