import PushButton.Proofs.Run.Quiet
import PushButton.Run.Step

/-!
# What actions put out

An action puts out exactly the lines and the image that its kind, its parameters, the storage and
the reply of the host call for, even when an observer makes it fail.
-/

namespace PushButton

variable {σ α : Type}

namespace Action

/-! ## The lines and images of an action -/

/-- The line about a text that is stored, if it is. -/
def savedLines (key value : Text) (s : Shelf) : List Text :=
  if key.isEmpty || value.isEmpty then []
  else
    match (s.set key value).1 with
    | .ok () => ["Saved to localStorage: " ++ key ++ " = " ++ value]
    | .error _ => []

/-- The line about a text that is looked up, if the storage can be read. -/
def shownLines (key : Text) (s : Shelf) : List Text :=
  if key.isEmpty then []
  else
    match s.get? key with
    | .ok value => [key ++ ": " ++ (value.getD []).orElse "Not found"]
    | .error _ => []

/-- The lines that an action puts out, given the storage, and the reply to its request once there is
one. -/
def lines (a : Action) (s : Shelf) (reply : Option Reply) : List Text :=
  match a.kind, reply with
  | .showText, _ => [a.param "text"]
  | .setLocalStorage, _ => savedLines (a.param "key") (a.param "value") s
  | .getLocalStorage, _ => shownLines (a.param "key") s
  | .promptAndShow, some (.answer (some t)) => ["You entered: " ++ t]
  | .closeWindow, some (.failed f) => if f.kind = .refused then ["Failed to close window"] else []
  | .closeWindow, some _ => ["Attempted to close window (may be blocked by browser)"]
  | _, _ => []

/-- The images that an action puts out. -/
def images (a : Action) : List Text :=
  match a.kind with
  | .showImage => if (a.param "url").isEmpty then [] else [a.param "url"]
  | _ => []

/-- A failure of the storage puts out nothing, whether it is recorded or not. -/
theorem puts_whenUnusable (f : Failure) (wording : Text) :
    Act.Respects (World.Puts [] []) (whenUnusable f wording : Act σ Unit) := by
  unfold whenUnusable
  split
  · exact (Act.quiet_log _ _ _ _).puts
  · exact Act.Respects.throw f

/-- The line about a stored text is put out. -/
theorem puts_saveItem (key value : Text) (w : World σ) :
    World.Puts (savedLines key value w.shelf) [] w ((saveItem key value).exec w).2 := by
  unfold saveItem savedLines
  by_cases hempty : (key.isEmpty || value.isEmpty) = true
  · rw [if_pos hempty, if_pos hempty]
    exact Act.Respects.pure (R := World.Puts [] []) _ w
  · rw [if_neg hempty, if_neg hempty]
    have hstore := Act.puts_store key value w
    obtain ⟨os, hexec⟩ := Act.exists_exec_store key value w
    rw [Act.exec_bind, hexec]
    rw [hexec] at hstore
    dsimp only at hstore ⊢
    generalize World.after _ os = w' at hstore ⊢
    cases (w.shelf.set key value).1 with
    | error e => exact hstore.of_nothing (puts_whenUnusable _ _ w')
    | ok u => exact hstore.of_nothing (Act.puts_putLine _ w')

/-- The line about a text that is looked up is put out. -/
theorem puts_showItem (key : Text) (w : World σ) :
    World.Puts (shownLines key w.shelf) [] w ((showItem key).exec w).2 := by
  unfold showItem shownLines
  by_cases hempty : key.isEmpty = true
  · rw [if_pos hempty, if_pos hempty]
    exact Act.Respects.pure (R := World.Puts [] []) _ w
  · rw [if_neg hempty, if_neg hempty, Act.exec_bind, Act.exec_get]
    dsimp only
    cases w.shelf.get? key with
    | error e => exact puts_whenUnusable _ _ w
    | ok value => exact Act.puts_putLine _ w

/-- An action that makes no request puts out its lines and images. -/
theorem puts_perform (a : Action) (w : World σ) :
    World.Puts (a.lines w.shelf none) a.images w ((perform a).exec w).2 := by
  have hnothing : World.Puts [] [] w w := Act.Frame.refl w
  unfold perform lines images
  cases a.kind with
  | showText => exact Act.puts_putLine _ w
  | showImage =>
    dsimp only
    split
    · exact hnothing
    · exact Act.puts_putImage _ w
  | setLocalStorage => exact puts_saveItem _ _ w
  | getLocalStorage => exact puts_showItem _ w
  | increaseButtonSize => exact Act.puts_grow _ w
  | changeButtonColor =>
    dsimp only
    split
    · exact ((Act.puts_draw _).bind fun n => Act.puts_paint _) w
    · split
      · exact hnothing
      · exact Act.puts_paint _ w
  | disableButton => exact Act.puts_disable w
  | alert | promptAndShow | refreshPage | closeWindow => exact hnothing

/-- An action that makes a request puts out no image, and no line before there is a reply. -/
theorem lines_images_of_request {a : Action} {r : Request} (hr : a.request? = some r) (s : Shelf) :
    a.lines s none = [] ∧ a.images = [] := by
  unfold request? at hr
  unfold lines images
  cases hkind : a.kind with
  | alert | promptAndShow | refreshPage | closeWindow => exact ⟨rfl, rfl⟩
  | _ =>
    rw [hkind] at hr
    cases hr

/-- A refusal puts out nothing. -/
theorem puts_whenRefused (f : Failure) (level : Level) (wording : Text) :
    Act.Respects (World.Puts [] []) (whenRefused f level wording : Act σ Unit) := by
  unfold whenRefused
  split
  · exact (Act.quiet_log _ _ _ _).puts
  · exact Act.Respects.throw f

/-- A line is put out, and the run goes on. -/
theorem puts_lineProceed (line : Text) :
    Act.Respects (World.Puts [line] []) (do Act.putLine line; pure .proceed : Act σ Effect) :=
  (Act.puts_putLine line).bind_of World.Puts.then_nothing fun _ => Act.Respects.pure _

/-- When a request to close is not met, a line is put out if it was refused. -/
theorem puts_closeFailed (f : Failure) (wording line : Text) :
    Act.Respects (World.Puts (if f.kind = .refused then [line] else []) [])
      (do
        whenRefused f .info wording
        Act.putLine line
        pure .proceed : Act σ Effect) := by
  unfold whenRefused
  by_cases hrefused : f.kind = .refused
  · simp only [if_pos hrefused]
    intro w
    rw [Act.exec_bind]
    have hlog := (Act.quiet_log .info logger (wording ++ f.message) [] : Act.Respects _ _).puts w
    exact hlog.of_nothing (puts_lineProceed line _)
  · simp only [if_neg hrefused]
    exact fun w => Act.Respects.throw (α := Unit) (R := World.Puts [] []) f w

/-- What the reply to the request of an action means is put out. -/
theorem puts_conclude {a : Action} {r : Request} (hr : a.request? = some r) (reply : Reply)
    (s : Shelf) :
    Act.Respects (World.Puts (a.lines s (some reply)) []) (conclude a reply : Act σ Effect) := by
  have hrefused {level : Level} {wording : Text} {f : Failure} :
      Act.Respects (World.Puts [] [])
        (do whenRefused f level wording; pure .proceed : Act σ Effect) :=
    (puts_whenRefused f level wording).bind fun _ => Act.Respects.pure _
  unfold request? at hr
  unfold conclude lines
  cases hkind : a.kind with
  | alert =>
    cases reply with
    | failed f => exact hrefused
    | done | answer t => exact Act.Respects.pure _
  | promptAndShow =>
    cases reply with
    | failed f => exact hrefused
    | done => exact Act.Respects.pure _
    | answer t =>
      cases t with
      | none => exact Act.Respects.pure _
      | some t => exact puts_lineProceed _
  | refreshPage =>
    cases reply with
    | failed f => exact hrefused
    | done | answer t => exact Act.Respects.pure _
  | closeWindow =>
    cases reply with
    | failed f => exact puts_closeFailed f _ _
    | done | answer t => exact puts_lineProceed _
  | _ =>
    rw [hkind] at hr
    cases hr

/-- The record about how long an action took is all that timing adds to it, however it ends. -/
theorem exec_timed (a : Action) (since : Nat) (act : Act σ α) (w : World σ) :
    (timed a since act).exec w =
      ((act.exec w).1, (act.exec w).2.after
        [.logged (Duration.record a.kind.name "DEBUG" since (act.exec w).2.clock)]) := by
  unfold timed
  dsimp only
  rw [Act.exec_bind, Act.exec_tryCatch]
  obtain ⟨r, w'⟩ := act.exec w
  cases r with
  | ok x => rfl
  | error f => rfl

/-- What has happened makes no difference to what is put out. -/
theorem puts_after {lines images : List Text} {w w' : World σ} (h : World.Puts lines images w w')
    (os : List Occurrence) : World.Puts lines images w (w'.after os) :=
  ⟨h.output, h.images, h.sequencer, h.listeners⟩

/-- The record about how long an action took puts out nothing more. -/
theorem puts_timed {lines images : List Text} {act : Act σ α}
    (h : Act.Respects (World.Puts lines images) act) (a : Action) (since : Nat) :
    Act.Respects (World.Puts lines images) (a.timed since act) := by
  intro w
  rw [exec_timed]
  exact puts_after (h w) _

/-- The reply to the request of an action that is begun, where it makes one and does not wait. -/
def reply? (h : Host σ) (mayWait : Bool) (a : Action) (host : σ) : Option Reply :=
  match a.request? with
  | none => none
  | some r =>
    match h.ask r host with
    | (some reply, _, _) => some reply
    | (none, host, _) => if mayWait then none else some (h.settle r host).1

/-- The request of an action is settled, and what the reply means is put out. -/
theorem puts_settle {h : Host σ} {a : Action} {r : Request} (hr : a.request? = some r) (since : Nat)
    (s : Shelf) (w : World σ) :
    World.Puts (a.lines s (some (h.settle r w.host).1)) [] w ((settle h a r since).exec w).2 := by
  have hconclude := puts_conclude (σ := σ) hr (h.settle r w.host).1 s
  unfold settle
  rw [exec_timed]
  refine puts_after ?_ _
  rw [Act.exec_bind]
  exact (Act.puts_settle h r w).of_nothing (hconclude _)

/-- **What an action puts out.** An action that is begun puts out its lines and images, whether or
not it fails; the lines of one that waits are put out when its request is settled. -/
theorem puts_start (h : Host σ) (mayWait : Bool) (a : Action) (w : World σ) :
    World.Puts (a.lines w.shelf (a.reply? h mayWait w.host)) a.images w
      ((a.start h mayWait).exec w).2 := by
  unfold start reply?
  rw [Act.exec_bind, Act.exec_log]
  dsimp only
  have hlog (o : Occurrence) : World.Puts [] [] w (w.after [o]) :=
    puts_after (Act.Frame.refl w) [o]
  refine (hlog (.logged ⟨.debug, logger, "Applying " ++ a.describe,
    [("action", .text a.kind.name), ("action_id", .text a.id)], none⟩)).of_nothing ?_
  rw [Act.exec_bind, Act.exec_get]
  dsimp only
  generalize hw₁ : w.after [_] = w₁
  have hshelf : w₁.shelf = w.shelf := hw₁ ▸ rfl
  have hhost : w₁.host = w.host := hw₁ ▸ rfl
  have hpure (e : Begun) : Act.Respects (World.Puts [] []) (pure e : Act σ Begun) :=
    Act.Respects.pure e
  cases hr : a.request? with
  | none =>
    refine Act.rel_bind_of World.Puts.then_nothing ?_ fun _ => hpure _
    rw [exec_timed, ← hshelf]
    exact puts_after (puts_perform a w₁) _
  | some r =>
    obtain ⟨hlines, himages⟩ := lines_images_of_request hr w.shelf
    have hask := Act.puts_ask h r w₁
    rw [Act.exec_ask, hhost] at hask
    dsimp only at hask ⊢
    rw [Act.exec_bind, Act.exec_ask, himages, hhost]
    dsimp only
    generalize h.ask r w.host = out at hask ⊢
    obtain ⟨reply, host, os⟩ := out
    dsimp only at hask ⊢
    refine hask.of_nothing ?_
    cases reply with
    | some reply =>
      dsimp only
      refine Act.rel_bind_of World.Puts.then_nothing ?_ fun _ => hpure _
      rw [exec_timed]
      exact puts_after (puts_conclude hr reply w.shelf _) _
    | none =>
      dsimp only
      by_cases hwait : mayWait = true
      · rw [if_pos hwait, if_pos hwait, hlines]
        exact hpure _ _
      · rw [if_neg hwait, if_neg hwait]
        have hsettle := puts_settle (h := h) hr w₁.clock w.shelf
          (({ w₁ with host := host } : World σ).after os)
        exact Act.rel_bind_of World.Puts.then_nothing hsettle fun _ => hpure _

/-- Only an action that may wait waits, and it waits for the request that it makes. -/
theorem waiting_of_start {h : Host σ} {mayWait : Bool} {a : Action}
    {w w' : World σ} {q : Request} {since : Nat}
    (hstart : (a.start h mayWait).exec w = (.ok (.waiting q since), w')) :
    mayWait = true ∧ a.request? = some q := by
  unfold start at hstart
  rw [Act.exec_bind, Act.exec_log] at hstart
  dsimp only at hstart
  rw [Act.exec_bind, Act.exec_get] at hstart
  dsimp only at hstart
  cases hr : a.request? with
  | none =>
    rw [hr] at hstart
    dsimp only at hstart
    rw [Act.exec_bind] at hstart
    split at hstart
    · cases hstart
    · cases hstart
  | some r =>
    rw [hr] at hstart
    dsimp only at hstart
    rw [Act.exec_bind, Act.exec_ask] at hstart
    dsimp only at hstart
    split at hstart
    · rw [Act.exec_bind] at hstart
      split at hstart
      · cases hstart
      · cases hstart
    · split at hstart
      · next hwait =>
        cases hstart
        exact ⟨hwait, rfl⟩
      · rw [Act.exec_bind] at hstart
        split at hstart
        · cases hstart
        · cases hstart

/-- An action that is applied without waiting is begun and does not wait. -/
theorem exec_apply (h : Host σ) (a : Action) (w : World σ) : ∃ res w',
    (a.start h false).exec w = (res.map Begun.applied, w') ∧ (a.apply h).exec w = (res, w') := by
  unfold apply
  rw [Act.exec_bind]
  cases hstart : (a.start h false).exec w with
  | mk res w' =>
    cases res with
    | error f => exact ⟨.error f, w', rfl, rfl⟩
    | ok b =>
      cases b with
      | applied e => exact ⟨.ok e, w', rfl, rfl⟩
      | waiting r since => cases (waiting_of_start hstart).1

end Action

end PushButton
