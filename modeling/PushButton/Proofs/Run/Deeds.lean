import PushButton.Proofs.Run.Moves

/-!
# What deeds leave behind

The lines and the images of a surface and what is known about its runs follow from the deeds alone.
Beginning a run and making the surface anew take lines and images away; actions put some out at the
end; beginning, taking up an action and ending are what the numbers about the runs count.
-/

namespace PushButton

variable {σ : Type}

namespace Deed

/-- The deed takes lines and images away. -/
def clears : Deed → Bool
  | .began | .remade => true
  | _ => false

/-- The lines that a deed puts out. -/
def lines : Deed → List Text
  | .put lines _ => lines
  | _ => []

/-- The images that a deed puts out. -/
def images : Deed → List Text
  | .put _ images => images
  | _ => []

/-- The action that was applied, with its position. -/
def applied? : Deed → Option (Action × Nat)
  | .applied i a => some (a, i)
  | _ => none

/-- The position of the action that is taken up. -/
def reached? : Deed → Option Nat
  | .reached i => some i
  | _ => none

/-- What is shown after a deed that shows a part more. -/
def onto (part : Deed → List Text) (shown : List Text) (d : Deed) : List Text :=
  if d.clears then [] else shown ++ part d

/-- What is known about the runs after a deed. -/
def track (s : Sequencer) : Deed → Sequencer
  | .began => { s with started := s.started + 1, active := s.active + 1 }
  | .reached i => { s with current := some i }
  | .left _ => Run.release s
  | _ => s

end Deed

/-- A world that deeds have led to. -/
structure World.Follows (ds : List Deed) (w w' : World σ) : Prop where
  /-- The lines are those that the deeds have left. -/
  output : w'.surface.output = ds.foldl (Deed.onto Deed.lines) w.surface.output
  /-- The images are those that the deeds have left. -/
  images : w'.surface.images = ds.foldl (Deed.onto Deed.images) w.surface.images
  /-- The numbers about the runs are those that the deeds have counted. -/
  sequencer : w'.sequencer = ds.foldl Deed.track w.sequencer
  /-- No observer has come. -/
  listeners : w'.listeners.Sublist w.listeners

namespace World

/-- Deeds after other deeds. -/
theorem Follows.append {ds ds' : List Deed} {w w' w'' : World σ} (h : w.Follows ds w')
    (h' : w'.Follows ds' w'') : w.Follows (ds ++ ds') w'' := by
  refine ⟨?_, ?_, ?_, h'.listeners.trans h.listeners⟩
  · rw [List.foldl_append, ← h.output, h'.output]
  · rw [List.foldl_append, ← h.images, h'.images]
  · rw [List.foldl_append, ← h.sequencer, h'.sequencer]

/-- Where nothing was put out, no deed was done. -/
theorem Puts.follows_nil {w w' : World σ} (h : World.Puts [] [] w w') : w.Follows [] w' :=
  ⟨h.output.trans (List.append_nil _), h.images.trans (List.append_nil _), h.sequencer,
    h.listeners⟩

/-- What was put out is a deed. -/
theorem Puts.follows {lines images : List Text} {w w' : World σ}
    (h : World.Puts lines images w w') : w.Follows [.put lines images] w' :=
  ⟨h.output, h.images, h.sequencer, h.listeners⟩

/-- An action that is applied leaves the world as the action has made it. -/
theorem follows_applied (i : Nat) (a : Action) (w : World σ) : w.Follows [.applied i a] w :=
  ⟨(List.append_nil _).symm, (List.append_nil _).symm, rfl, .refl _⟩

/-- A run that ends is released. -/
theorem follows_released (e : Ending) (w : World σ) : w.Follows [.left e] w.released :=
  ⟨(List.append_nil _).symm, (List.append_nil _).symm, rfl, .refl _⟩

end World

/-- Lines and images were taken away; the runs are as they were, and no observer has come. -/
structure World.Clears (w w' : World σ) : Prop where
  /-- No line is left. -/
  output : w'.surface.output = []
  /-- No image is left. -/
  images : w'.surface.images = []
  /-- The runs are as they were. -/
  sequencer : w'.sequencer = w.sequencer
  /-- No observer has come. -/
  listeners : w'.listeners.Sublist w.listeners

/-- Where nothing is put out, lines and images stay away. -/
theorem World.Clears.then_nothing {w w' w'' : World σ} (h : w.Clears w')
    (h' : World.Puts [] [] w' w'') : w.Clears w'' := by
  refine ⟨?_, ?_, h'.sequencer.trans h.sequencer, h'.listeners.trans h.listeners⟩
  · rw [h'.output, h.output, List.append_nil]
  · rw [h'.images, h.images, List.append_nil]

/-- Taking lines and images away is a deed of a run. -/
theorem World.Clears.follows {w w₁ w' : World σ} {d : Deed} (h : w₁.Clears w')
    (hd : d.clears = true) (hsequencer : w₁.sequencer = d.track w.sequencer)
    (hlisteners : w₁.listeners = w.listeners) : w.Follows [d] w' := by
  have honto (part : Deed → List Text) (shown : List Text) :
      [d].foldl (Deed.onto part) shown = [] := if_pos hd
  refine ⟨?_, ?_, h.sequencer.trans hsequencer, ?_⟩
  · rw [honto, h.output]
  · rw [honto, h.images]
  · rw [← hlisteners]
    exact h.listeners

namespace Act

/-- Lines and images are taken away, even if an observer fails. -/
theorem clears_clear : Respects World.Clears (clear : Act σ Unit) := by
  have hchange : Respects World.Clears (change .output SurfaceState.cleared : Act σ Unit) := by
    refine (Respects.modify ?_).bind_of World.Clears.then_nothing fun _ =>
      (quiet_notify .output).puts
    exact fun w => ⟨rfl, rfl, rfl, .refl _⟩
  exact hchange.bind_of World.Clears.then_nothing fun _ => (quiet_notify .images).puts

/-- When the surface is made anew, lines and images are taken away, even if an observer fails. -/
theorem clears_remake : Respects World.Clears (remake : Act σ Unit) := by
  refine (Respects.modify ?_).bind_of World.Clears.then_nothing fun _ => ?_
  · exact fun w => ⟨rfl, rfl, rfl, .refl _⟩
  · exact Respects.forM fun field _ => (quiet_notify field).puts

end Act

namespace Run

/-- A run that finishes puts out nothing. -/
theorem puts_finish (r : Run) : Act.Respects (World.Puts [] []) (r.finish : Act σ _) := by
  refine Act.Respects.get.bind fun w => ?_
  exact (Act.quiet_log _ _ _ _).puts.bind fun _ => Act.Respects.pure _

/-- A run that begins takes lines and images away and counts as one that has begun. -/
theorem follows_begin (r : Run) (w : World σ) : w.Follows [.began] (r.begin.exec w).2 := by
  unfold begin log
  simp only [Act.exec_bind, Act.exec_modify, Act.exec_get, Act.exec_log]
  generalize hw₁ : World.after _ [_] = w₁
  have hclears := Act.clears_clear w₁
  have hfollows : w.Follows [.began] (Act.clear.exec w₁).2 :=
    hclears.follows rfl (hw₁ ▸ rfl) (hw₁ ▸ rfl)
  generalize Act.clear.exec w₁ = out at hfollows ⊢
  obtain ⟨res, w'⟩ := out
  cases res with
  | error f => exact hfollows
  | ok u => exact hfollows

/-- A surface that is made anew because of an action has no lines and images. -/
theorem follows_remount (r : Run) (a : Action) (w : World σ) :
    w.Follows [.remade] ((r.remount a).exec w).2 := by
  unfold remount log
  rw [Act.exec_bind, Act.exec_log]
  have hclears := Act.clears_remake (w.after [.logged ⟨.info, logger,
    "Surface reloaded, run ends here", r.stepContext a, none⟩])
  exact hclears.follows rfl rfl rfl

/-- An action that is taken up counts as the current one. -/
theorem follows_announce (r : Run) (a : Action) (w : World σ) :
    w.Follows [.reached r.index] ((r.announce a).exec w).2 :=
  ⟨(List.append_nil _).symm, (List.append_nil _).symm, rfl, .refl _⟩

/-- An attempt does its deeds, whether or not it fails. -/
theorem follows_attempt {h : Host σ} {r : Run} {a : Action} {rest : List Action}
    (hsound : r.IsSound) (hrem : r.remaining = a :: rest) (mayWait : Bool) (w : World σ) :
    w.Follows (r.attemptDeeds h mayWait a w) ((r.attempt h mayWait a).exec w).2 := by
  cases hph : r.phase with
  | asking q since =>
    obtain ⟨a', rest', hrem', hq⟩ := hsound q since hph
    obtain ⟨rfl, rfl⟩ := List.cons.inj (hrem.symm.trans hrem')
    have hputs := (Action.puts_settle (h := h) hq since w.shelf w).follows
    unfold attemptDeeds
    rw [exec_attempt_asking hph, hph]
    exact hputs
  | _ =>
    have hannounced := follows_announce r a w
    obtain ⟨w₁, hexec, hshelf, hhost⟩ : ∃ w₁, (r.announce a).exec w = (.ok (), w₁) ∧
        w₁.shelf = w.shelf ∧ w₁.host = w.host := ⟨_, rfl, rfl, rfl⟩
    have hstart := (Action.puts_start h mayWait a w₁).follows
    rw [hshelf, hhost] at hstart
    rw [hexec] at hannounced
    unfold attempt attemptDeeds
    rw [hph]
    dsimp only
    rw [Act.exec_bind, hexec]
    exact hannounced.append hstart

end Run

/-- Every move does its deeds. -/
theorem Move.follows {h : Host σ} {x y : World σ × Run} {ds : List Deed} (hmove : Move h x ds y)
    (hsound : x.2.IsSound) : x.1.Follows ds y.1 := by
  have hnothing (w : World σ) : w.Follows [] w :=
    (Act.Frame.refl (R := World.Puts [] []) w).follows_nil
  cases hmove with
  | @idles w r =>
    exact ((Act.quiet_log .debug Run.logger _ [] : Act.Respects _ _).puts w).follows_nil
  | drops => exact hnothing _
  | @begins w w' r r' _ _ hbegin =>
    have hfollows := r.follows_begin w
    rw [hbegin] at hfollows
    exact hfollows
  | @beginFails w w' r f _ _ hbegin =>
    have hfollows := r.follows_begin w
    rw [hbegin] at hfollows
    exact hfollows
  | @waits w w' r _ _ hsleep =>
    have hputs := Act.puts_sleep w.sequencer.pacing w
    rw [hsleep] at hputs
    exact hputs.follows_nil
  | @asks w w' r a rest mayWait q since _ hrem hattempt =>
    have hfollows := Run.follows_attempt (h := h) hsound hrem mayWait w
    rw [hattempt] at hfollows
    exact hfollows
  | @proceeds w w' r a rest mayWait _ hrem hattempt =>
    have hfollows := Run.follows_attempt (h := h) hsound hrem mayWait w
    rw [hattempt] at hfollows
    exact hfollows.append (World.follows_applied r.index a w')
  | @reloads w w' w'' r a rest mayWait _ hrem hattempt hremount =>
    have hfollows := Run.follows_attempt (h := h) hsound hrem mayWait w
    have hremade := r.follows_remount a w'
    rw [hattempt] at hfollows
    rw [hremount] at hremade
    exact hfollows.append ((World.follows_applied r.index a w').append hremade)
  | @reloadFails w w' w'' r r' a rest mayWait f _ hrem hattempt hremount =>
    have hfollows := Run.follows_attempt (h := h) hsound hrem mayWait w
    have hremade := r.follows_remount a w'
    rw [hattempt] at hfollows
    rw [hremount] at hremade
    have hleft := World.follows_released .failed w''
    exact hfollows.append ((World.follows_applied r.index a w').append (hremade.append hleft))
  | @fails w w' r r' a rest mayWait f _ hrem hattempt =>
    have hfollows := Run.follows_attempt (h := h) hsound hrem mayWait w
    rw [hattempt] at hfollows
    exact hfollows.append (World.follows_released .failed w')
  | @finishes w w' r r' out _ _ hfinish =>
    have hputs := r.puts_finish w
    rw [hfinish] at hputs
    exact hputs.follows_nil.append (World.follows_released .finished w')
  | ends => exact World.follows_released .reloaded _
  | cancelsPacing => exact World.follows_released .cancelled _
  | @cancelsAsking w r r' a rest q since =>
    have hputs := Action.puts_timed (Act.puts_abandon h q) a since w
    exact hputs.follows_nil.append (World.follows_released .cancelled _)
  | closes => exact World.follows_released .closed _

end PushButton
