import PushButton.Proofs.Run.Obstacles
import PushButton.Proofs.Run.Overlap
import PushButton.Proofs.Storage.Overlay

/-!
# What runs put into the storage

Only one kind of action changes the storage: it puts a text under a key. The ledger of the runs on a
surface lists these attempts in the order in which they were made, each with what has come of it.
However the runs overlap, and wherever they are left, fail or are given up, the storage is what the
texts on the ledger have made of it, so it holds what it held at first with the taken texts laid
over it.
-/

namespace PushButton

variable {σ α : Type}

/-! ## Steps that spare the storage -/

/-- The storage and the files are as they were. -/
structure World.KeepsShelf (w w' : World σ) : Prop where
  /-- They are the same. -/
  shelf : w'.shelf = w.shelf

instance : Act.Frame (World.KeepsShelf (σ := σ)) where
  refl _ := ⟨rfl⟩
  trans h h' := ⟨h'.shelf.trans h.shelf⟩

namespace Act

/-- A quiet step spares the storage. -/
theorem Respects.keepsShelf {act : Act σ α} (h : Respects World.Quiet act) :
    Respects World.KeepsShelf act := fun w => ⟨(h w).spares.shelf⟩

/-- Changing a part of the surface spares the storage. -/
theorem keepsShelf_change (field : Field) (f : SurfaceState → SurfaceState) :
    Respects World.KeepsShelf (change field f : Act σ Unit) :=
  (Respects.modify fun _ => ⟨rfl⟩).bind fun _ => (quiet_notify field).keepsShelf

/-- Taking lines and images away spares the storage. -/
theorem keepsShelf_clear : Respects World.KeepsShelf (clear : Act σ Unit) :=
  (keepsShelf_change _ _).bind fun _ => (quiet_notify .images).keepsShelf

/-- Making the surface anew spares the storage. -/
theorem keepsShelf_remake : Respects World.KeepsShelf (remake : Act σ Unit) :=
  (Respects.modify fun _ => ⟨rfl⟩).bind fun _ =>
    Respects.forM fun field _ => (quiet_notify field).keepsShelf

/-- Waiting spares the storage. -/
theorem keepsShelf_sleep (ms : Nat) : Respects World.KeepsShelf (sleep ms : Act σ Unit) := by
  unfold sleep
  split
  · exact (Respects.modify fun _ => ⟨rfl⟩).bind fun _ => (quiet_occur _).keepsShelf
  · exact Respects.pure _

end Act

namespace Action

variable {h : Host σ} {a : Action}

/-- A refusal spares the storage. -/
theorem keepsShelf_whenRefused (f : Failure) (level : Level) (wording : Text) :
    Act.Respects World.KeepsShelf (whenRefused f level wording : Act σ Unit) := by
  unfold whenRefused
  split
  · exact (Act.quiet_log _ _ _ _).keepsShelf
  · exact Act.Respects.throw f

/-- A failure of the storage spares it. -/
theorem keepsShelf_whenUnusable (f : Failure) (wording : Text) :
    Act.Respects World.KeepsShelf (whenUnusable f wording : Act σ Unit) := by
  unfold whenUnusable
  split
  · exact (Act.quiet_log _ _ _ _).keepsShelf
  · exact Act.Respects.throw f

/-- What a reply means never changes the storage. -/
theorem keepsShelf_conclude (a : Action) (reply : Reply) :
    Act.Respects World.KeepsShelf (conclude a reply : Act σ Effect) := by
  have hproceed (act : Act σ Unit) (hact : Act.Respects World.KeepsShelf act) :
      Act.Respects World.KeepsShelf (do act; pure .proceed : Act σ Effect) :=
    hact.bind fun _ => Act.Respects.pure _
  unfold conclude
  split
  · exact hproceed _ (keepsShelf_whenRefused _ _ _)
  · exact hproceed _ (keepsShelf_whenRefused _ _ _)
  · exact hproceed _ (Act.keepsShelf_change _ _)
  · exact hproceed _ (keepsShelf_whenRefused _ _ _)
  · exact Act.Respects.pure _
  · exact (keepsShelf_whenRefused _ _ _).bind fun _ => hproceed _ (Act.keepsShelf_change _ _)
  · exact hproceed _ (Act.keepsShelf_change _ _)
  · exact Act.Respects.throw _
  · exact Act.Respects.pure _

/-- Settling a request spares the storage. -/
theorem keepsShelf_settle (a : Action) (r : Request) (since : Nat) :
    Act.Respects World.KeepsShelf (settle h a r since) := by
  intro w
  unfold settle
  rw [exec_timed]
  have hasked : Act.Respects World.KeepsShelf (Act.settle h r) := fun _ => ⟨rfl⟩
  exact ⟨((hasked.bind fun reply => keepsShelf_conclude a reply) w).shelf⟩

/-- Looking a text up spares the storage. -/
theorem keepsShelf_showItem (key : Text) :
    Act.Respects World.KeepsShelf (showItem key : Act σ Unit) := by
  unfold showItem
  split
  · exact Act.Respects.pure _
  · refine Act.Respects.get.bind fun w => ?_
    split
    · exact keepsShelf_whenUnusable _ _
    · exact Act.keepsShelf_change _ _

/-- Storing a text changes the storage as putting the text does, unless the key or the text is
missing. -/
theorem shelf_saveItem (key value : Text) (w : World σ) : ((saveItem key value).exec w).2.shelf =
    if key.isEmpty || value.isEmpty then w.shelf else (w.shelf.set key value).2 := by
  unfold saveItem
  by_cases hempty : (key.isEmpty || value.isEmpty) = true
  · rw [if_pos hempty, if_pos hempty]
    rfl
  rw [if_neg hempty, if_neg hempty]
  obtain ⟨os, hstore⟩ := Act.exists_exec_store key value w
  rw [Act.exec_bind, hstore]
  cases (w.shelf.set key value).1 with
  | error e => exact (keepsShelf_whenUnusable e.failure _ _).shelf
  | ok u => exact (Act.keepsShelf_change _ _ _).shelf

/-- An action that makes no request changes the storage as its text does. -/
theorem shelf_perform (a : Action) (w : World σ) :
    ((perform a).exec w).2.shelf = a.shelfAfter w.shelf := by
  have hspares {act : Act σ Unit} (hact : Act.Respects World.KeepsShelf act)
      (hkind : a.kind ≠ .setLocalStorage) : (act.exec w).2.shelf = a.shelfAfter w.shelf := by
    rw [shelfAfter, stores, decide_eq_false hkind]
    exact (hact w).shelf
  unfold perform
  cases hkind : a.kind with
  | showText => exact hspares (Act.keepsShelf_change _ _) (by simp [hkind])
  | showImage =>
    dsimp only
    split
    · exact hspares (Act.Respects.pure _) (by simp [hkind])
    · exact hspares (Act.keepsShelf_change _ _) (by simp [hkind])
  | setLocalStorage =>
    rw [shelfAfter, stores, decide_eq_true hkind]
    refine (shelf_saveItem _ _ w).trans ?_
    cases (a.param "key").isEmpty || (a.param "value").isEmpty <;> rfl
  | getLocalStorage => exact hspares (keepsShelf_showItem _) (by simp [hkind])
  | increaseButtonSize => exact hspares (Act.keepsShelf_change _ _) (by simp [hkind])
  | changeButtonColor =>
    dsimp only
    split
    · have hdraw : Act.Respects World.KeepsShelf (Act.draw colorCount : Act σ Nat) :=
        fun _ => ⟨rfl⟩
      exact hspares (hdraw.bind fun _ => Act.keepsShelf_change _ _) (by simp [hkind])
    · split
      · exact hspares (Act.Respects.pure _) (by simp [hkind])
      · exact hspares (Act.keepsShelf_change _ _) (by simp [hkind])
  | disableButton => exact hspares (Act.keepsShelf_change _ _) (by simp [hkind])
  | alert | promptAndShow | refreshPage | closeWindow =>
    exact hspares (Act.Respects.pure _) (by simp [hkind])

/-- **What an action does to the storage.** An action that is begun changes the storage as its text
does, however it ends. -/
theorem shelf_start (h : Host σ) (mayWait : Bool) (a : Action) (w : World σ) :
    ((a.start h mayWait).exec w).2.shelf = a.shelfAfter w.shelf := by
  unfold start
  rw [Act.exec_bind, Act.exec_log]
  dsimp only
  rw [Act.exec_bind, Act.exec_get]
  dsimp only
  generalize hw₁ : w.after [_] = w₁
  have hshelf : w₁.shelf = w.shelf := hw₁ ▸ rfl
  cases hr : a.request? with
  | none =>
    dsimp only
    have hperform := shelf_perform a w₁
    rw [Act.exec_bind, exec_timed]
    generalize (perform a).exec w₁ = out at hperform
    obtain ⟨res, w₂⟩ := out
    rw [hshelf] at hperform
    cases res with
    | error f => exact hperform
    | ok u => exact hperform
  | some r =>
    rw [shelfAfter_of_request hr, ← hshelf]
    have hask : Act.Respects World.KeepsShelf (Act.ask h r) := fun _ => ⟨rfl⟩
    suffices hkeeps : w₁.KeepsShelf _ from hkeeps.shelf
    refine (hask.bind fun reply => ?_) w₁
    split
    · refine Act.Respects.bind (fun w => ?_) fun _ => Act.Respects.pure _
      rw [exec_timed]
      exact ⟨(keepsShelf_conclude a _ w).shelf⟩
    · split
      · exact Act.Respects.pure _
      · exact (keepsShelf_settle a r _).bind fun _ => Act.Respects.pure _

end Action

/-! ## The ledger -/

/-- An attempt of a run to put a text into the storage. -/
structure Writing where
  /-- The number of the run. -/
  run : Nat
  /-- The position of the action in the workflow of the run. -/
  index : Nat
  /-- The action. -/
  action : Action
  /-- The storage has taken the text. -/
  taken : Bool
deriving DecidableEq, Repr

namespace Writing

/-- The key. -/
def key (x : Writing) : Text := x.action.param "key"

/-- The text. -/
def value (x : Writing) : Text := x.action.param "value"

/-- What a deed of the run with a number writes, given the actions of its workflow and the storage
in front of the deed: taking up an action with a key and a text to store is an attempt to put the
text under the key. -/
def of? (k : Nat) (actions : List Action) (s : Shelf) : Deed → Option Writing
  | .reached i =>
    match actions[i]? with
    | some a =>
      if a.stores then some ⟨k, i, a, (s.set (a.param "key") (a.param "value")).1.isOk⟩ else none
    | none => none
  | _ => none

/-- The texts that the storage has taken, with their keys. -/
def texts (xs : List Writing) : StoredItems :=
  (xs.filter (·.taken)).map fun x => (x.key, x.value)

end Writing

/-- The ledger of the runs on a surface: what there was before, the deeds of the runs, their
attempts to put texts into the storage, and what there is now. -/
inductive Ledger (h : Host σ) (t₀ : Traffic σ) :
    List (Nat × Deed) → List Writing → Traffic σ → Prop
  /-- Nothing was done. -/
  | nil : Ledger h t₀ [] [] t₀
  /-- A run was started. -/
  | started {ds : List (Nat × Deed)} {xs : List Writing} {t : Traffic σ}
      (workflow : Option Workflow) (stepwise : Bool) : Ledger h t₀ ds xs t →
      Ledger h t₀ ds xs { t with runs := t.runs ++ [.new workflow stepwise] }
  /-- A run has made a move. -/
  | moved {ds : List (Nat × Deed)} {ds' : List Deed} {xs : List Writing} {t : Traffic σ} {k : Nat}
      {s : StartedRun} {w : World σ} {r : Run} : Ledger h t₀ ds xs t → t.runs[k]? = some s →
      Move h (t.world, s.run) ds' (w, r) →
      Ledger h t₀ (ds ++ ds'.map (k, ·))
        (xs ++ ds'.filterMap (Writing.of? k s.actions t.world.shelf))
        ⟨w, t.runs.set k { s with run := r }⟩

/-- What attempts to put texts make of a storage, one after the other. -/
inductive Shelf.Writes (s : Shelf) : List Writing → Shelf → Prop
  /-- Nothing was attempted. -/
  | nil : Writes s [] s
  /-- One more attempt. -/
  | append {xs : List Writing} {s' : Shelf} (x : Writing) : Writes s xs s' →
      x.taken = (s'.set x.key x.value).1.isOk → Writes s (xs ++ [x]) (s'.set x.key x.value).2

/-! ## Moves and the storage -/

/-- Where nothing was changed, nothing was attempted. -/
theorem Shelf.Writes.of_eq {s s' : Shelf} (h : s' = s) : s.Writes [] s' := h ▸ .nil

/-- What one attempt makes of a storage. -/
theorem Shelf.Writes.one {s s' : Shelf} (x : Writing)
    (htaken : x.taken = (s.set x.key x.value).1.isOk) (h : s' = (s.set x.key x.value).2) :
    s.Writes [x] s' := by
  rw [h]
  exact Writes.nil.append x htaken

/-- Attempts after other ones. -/
theorem Shelf.Writes.trans {s s' s'' : Shelf} {xs xs' : List Writing} (h : s.Writes xs s')
    (h' : s'.Writes xs' s'') : s.Writes (xs ++ xs') s'' := by
  induction h' with
  | nil => rwa [List.append_nil]
  | append x _ htaken ih =>
    rw [← List.append_assoc]
    exact ih.append x htaken

namespace Run

variable {h : Host σ}

/-- Beginning a run spares the storage. -/
theorem keepsShelf_begin (r : Run) : Act.Respects World.KeepsShelf (r.begin : Act σ Run) := by
  refine (Act.Respects.modify fun _ => ⟨rfl⟩).bind fun _ => Act.Respects.get.bind fun w => ?_
  refine (Act.quiet_log _ _ _ _).keepsShelf.bind fun _ => ?_
  exact Act.keepsShelf_clear.bind fun _ => Act.Respects.pure _

/-- Making the surface anew behind an action spares the storage. -/
theorem keepsShelf_remount (r : Run) (a : Action) :
    Act.Respects World.KeepsShelf (r.remount a : Act σ Unit) :=
  (Act.quiet_log _ _ _ _).keepsShelf.bind fun _ => Act.keepsShelf_remake

/-- Finishing a run spares the storage. -/
theorem keepsShelf_finish (r : Run) :
    Act.Respects World.KeepsShelf (r.finish : Act σ (Run × Progress)) :=
  Act.Respects.get.bind fun _ =>
    (Act.quiet_log _ _ _ _).keepsShelf.bind fun _ => Act.Respects.pure _

/-- An attempt at an action makes of the storage what its deeds write. -/
theorem writes_attempt {r : Run} {a : Action} {rest actions : List Action}
    (hrem : r.remaining = a :: rest) (hactions : r.remaining = actions.drop r.index) (k : Nat)
    (mayWait : Bool) (w : World σ) :
    w.shelf.Writes ((r.attemptDeeds h mayWait a w).filterMap (Writing.of? k actions w.shelf))
      ((r.attempt h mayWait a).exec w).2.shelf := by
  cases hph : r.phase with
  | asking q since =>
    unfold attemptDeeds
    rw [exec_attempt_asking hph, hph]
    exact .of_eq (Action.keepsShelf_settle a q since w).shelf
  | _ =>
    have hat : actions[r.index]? = some a := by
      rw [← List.head?_drop, ← hactions, hrem]
      rfl
    obtain ⟨w₁, hannounce, hshelf⟩ : ∃ w₁, (r.announce a).exec w = (.ok (), w₁) ∧
        w₁.shelf = w.shelf := ⟨_, rfl, rfl⟩
    have hstart := Action.shelf_start h mayWait a w₁
    rw [hshelf, Action.shelfAfter] at hstart
    unfold attempt attemptDeeds
    rw [hph]
    dsimp only
    rw [Act.exec_bind, hannounce, List.filterMap_cons, Writing.of?, hat]
    dsimp only
    by_cases hstores : a.stores = true
    · rw [if_pos hstores] at hstart ⊢
      exact .one _ rfl hstart
    · rw [if_neg hstores] at hstart ⊢
      exact .of_eq hstart

end Run

/-- **Every move writes what its deeds say.** A move of a run changes the storage only where it
takes up an action with a key and a text to store, and then as putting that text does. -/
theorem Move.writes {h : Host σ} {x y : World σ × Run} {ds : List Deed} (hmove : Move h x ds y)
    {actions : List Action} (hactions : x.2.remaining = actions.drop x.2.index) (k : Nat) :
    x.1.shelf.Writes (ds.filterMap (Writing.of? k actions x.1.shelf)) y.1.shelf := by
  have hattempt {mayWait : Bool} {r : Run} {a : Action} {rest : List Action} {w w' w'' : World σ}
      {res : Except Failure Begun} (more : List Deed) (hrem : r.remaining = a :: rest)
      (hactions : r.remaining = actions.drop r.index)
      (hexec : (r.attempt h mayWait a).exec w = (res, w')) (hkeeps : w'.KeepsShelf w'')
      (hmore : more.filterMap (Writing.of? k actions w.shelf) = []) :
      w.shelf.Writes ((r.attemptDeeds h mayWait a w ++ more).filterMap
        (Writing.of? k actions w.shelf)) w''.shelf := by
    have hwrites := Run.writes_attempt (h := h) hrem hactions k mayWait w
    rw [hexec] at hwrites
    rw [List.filterMap_append, hmore, List.append_nil, hkeeps.shelf]
    exact hwrites
  cases hmove with
  | idles | drops | ends | cancelsPacing | closes => exact .of_eq rfl
  | begins _ _ hbegin | beginFails _ _ hbegin =>
    exact .of_eq ((Run.keepsShelf_begin _).of_exec hbegin).shelf
  | waits _ _ hsleep => exact .of_eq ((Act.keepsShelf_sleep _).of_exec hsleep).shelf
  | @finishes w w' r r' out _ _ hfinish =>
    have hkeeps := (Run.keepsShelf_finish r).of_exec hfinish
    exact .of_eq hkeeps.shelf
  | @cancelsAsking w r r' a rest q since =>
    have habandon : ((a.timed since (Act.abandon h q)).exec w).2.shelf = w.shelf := by
      rw [Action.exec_timed]
      rfl
    exact .of_eq habandon
  | @asks w w' r a rest mayWait q since _ hrem hexec =>
    have hwrites := hattempt [] hrem hactions hexec (Act.Frame.refl w') rfl
    rwa [List.append_nil] at hwrites
  | @proceeds w w' r a rest mayWait _ hrem hexec =>
    exact hattempt _ hrem hactions hexec (Act.Frame.refl w') rfl
  | @reloads w w' w'' r a rest mayWait _ hrem hexec hremount =>
    exact hattempt _ hrem hactions hexec ((Run.keepsShelf_remount r a).of_exec hremount) rfl
  | @reloadFails w w' w'' r r' a rest mayWait f _ hrem hexec hremount =>
    have hkeeps := (Run.keepsShelf_remount r a).of_exec hremount
    exact hattempt _ hrem hactions hexec ⟨hkeeps.shelf⟩ rfl
  | @fails w w' r r' a rest mayWait f _ hrem hexec =>
    exact hattempt _ hrem hactions hexec ⟨rfl⟩ rfl

/-- An action that puts a text into the storage makes no request. -/
theorem Action.request?_of_stores {a : Action} (h : a.stores = true) : a.request? = none := by
  unfold stores at h
  rw [Bool.and_eq_true, decide_eq_true_eq] at h
  unfold request?
  rw [h.1]

/-- In the move in which an action that puts a text into the storage is applied, it is taken up. -/
theorem Move.reached_of_applied {h : Host σ} {x y : World σ × Run} {ds : List Deed}
    (hmove : Move h x ds y) (hsound : x.2.IsSound) {actions : List Action}
    (hactions : x.2.remaining = actions.drop x.2.index) {i : Nat} {a : Action}
    (happlied : .applied i a ∈ ds) (hstores : a.stores = true) :
    .reached i ∈ ds ∧ actions[i]? = some a := by
  have hattempt {mayWait : Bool} {r : Run} {b : Action} {rest : List Action} {w : World σ}
      (more : List Deed) (hsound : r.IsSound) (hrem : r.remaining = b :: rest)
      (hactions : r.remaining = actions.drop r.index)
      (happlied : .applied i a ∈ r.attemptDeeds h mayWait b w ++ more)
      (hmore : .applied i a ∈ more → i = r.index ∧ a = b) :
      .reached i ∈ r.attemptDeeds h mayWait b w ++ more ∧ actions[i]? = some a := by
    have hnone := (r.attemptDeeds_plain h mayWait b w).1
    obtain happlied | happlied := List.mem_append.mp happlied
    · have hmem := List.mem_filterMap.mpr ⟨_, happlied, (rfl : Deed.applied? _ = some (a, i))⟩
      rw [hnone] at hmem
      cases hmem
    obtain ⟨rfl, rfl⟩ := hmore happlied
    constructor
    · refine List.mem_append_left _ ?_
      unfold Run.attemptDeeds
      split
      · next q since hph =>
        obtain ⟨b', rest', hrem', hrequest⟩ := hsound q since hph
        obtain ⟨rfl, -⟩ := List.cons.inj (hrem.symm.trans hrem')
        rw [Action.request?_of_stores hstores] at hrequest
        cases hrequest
      · exact List.mem_cons_self
    · rw [← List.head?_drop, ← hactions, hrem]
      rfl
  cases hmove with
  | idles | drops | begins | beginFails | waits | finishes | ends | cancelsPacing | cancelsAsking
  | closes => simp at happlied
  | asks _ hrem =>
    rw [← List.append_nil (Run.attemptDeeds _ _ _ _ _)] at happlied ⊢
    exact hattempt [] hsound hrem hactions happlied nofun
  | proceeds _ hrem | reloads _ hrem | reloadFails _ hrem | fails _ hrem =>
    exact hattempt _ hsound hrem hactions happlied (by simp)

namespace Writing

/-- What a deed writes stands with the number of the run, at a position with an action that puts a
text into the storage. -/
theorem of?_eq_some {k : Nat} {actions : List Action} {s : Shelf} {d : Deed} {x : Writing}
    (h : of? k actions s d = some x) :
    x.run = k ∧ actions[x.index]? = some x.action ∧ x.action.stores = true := by
  unfold of? at h
  split at h
  · split at h
    · next hat =>
      split at h
      · next hstores =>
        cases h
        exact ⟨rfl, hat, hstores⟩
      · cases h
    · cases h
  · cases h

/-- The texts of attempts after other ones. -/
theorem texts_append (xs xs' : List Writing) : texts (xs ++ xs') = texts xs ++ texts xs' := by
  unfold texts
  rw [List.filter_append, List.map_append]

end Writing

/-- **Taken texts are laid over a storage.** A steady storage in which attempts were made to put
texts holds what it held, with the taken texts laid over it. -/
theorem Shelf.Writes.items {s s' : Shelf} {xs : List Writing} (h : s.Writes xs s')
    (hsteady : s.IsSteady) {m : OrderedMap} (hitems : s.items = .ok m.items) :
    s'.IsSteady ∧ s'.items = .ok (m.overlay (Writing.texts xs)).items := by
  induction h with
  | nil => exact ⟨hsteady, hitems⟩
  | @append xs s' x _ htaken ih =>
    obtain ⟨hsteady', hset⟩ := ih.1.set ih.2 x.key x.value
    refine ⟨hsteady', ?_⟩
    rw [hset, ← htaken, Writing.texts_append, OrderedMap.overlay_append]
    by_cases hx : x.taken = true
    · have hone : Writing.texts [x] = [(x.key, x.value)] := by simp [Writing.texts, hx]
      rw [if_pos hx, hone]
      exact congrArg _ (OrderedMap.items_set _ _ _).symm
    · have hnone : Writing.texts [x] = [] := by simp [Writing.texts, hx]
      rw [if_neg hx, hnone]
      rfl

namespace Ledger

variable {h : Host σ} {t₀ t : Traffic σ} {ds : List (Nat × Deed)} {xs : List Writing}

/-- A ledger goes with a history. -/
theorem history (hledger : Ledger h t₀ ds xs t) : History h t₀ ds t := by
  induction hledger with
  | nil => exact .nil
  | started workflow stepwise _ ih => exact ih.started workflow stepwise
  | moved _ hs hmove ih => exact ih.moved hs hmove

/-- Every history has a ledger. -/
theorem exists_of_history (hist : History h t₀ ds t) : ∃ xs, Ledger h t₀ ds xs t := by
  induction hist with
  | nil => exact ⟨[], .nil⟩
  | started workflow stepwise _ ih =>
    obtain ⟨xs, hledger⟩ := ih
    exact ⟨xs, hledger.started workflow stepwise⟩
  | moved _ hs hmove ih =>
    obtain ⟨xs, hledger⟩ := ih
    exact ⟨_, hledger.moved hs hmove⟩

/-- Whatever is done with runs has a ledger. -/
theorem exists_takeAll (h : Host σ) (w₀ : World σ) (turns : List Turn) :
    ∃ ds xs, Ledger h ⟨w₀, []⟩ ds xs (Traffic.takeAll h ⟨w₀, []⟩ turns) := by
  have hsound : ∀ s ∈ (⟨w₀, []⟩ : Traffic σ).runs, s.run.IsSound := nofun
  obtain ⟨ds, hist⟩ := History.exists_takeAll h hsound turns
  exact ⟨ds, exists_of_history hist⟩

variable {w₀ : World σ}

/-- The storage is what the attempts on the ledger have made of it. -/
theorem writes (hledger : Ledger h ⟨w₀, []⟩ ds xs t) : w₀.shelf.Writes xs t.world.shelf := by
  generalize hstart : (⟨w₀, []⟩ : Traffic σ) = t₀ at hledger
  induction hledger with
  | nil =>
    subst hstart
    exact .nil
  | started _ _ _ ih => exact ih
  | @moved ds ds' xs t k s w r hledger hs hmove ih =>
    subst hstart
    obtain ⟨-, hpresent, -⟩ := hledger.history.appliedBy_prefix hs
    obtain ⟨-, hremaining⟩ := hpresent hmove.phase_ne
    exact ih.trans (hmove.writes hremaining k)

/-- What stands on the ledger was attempted by an action of a run, at its position. -/
theorem exists_run (hledger : Ledger h ⟨w₀, []⟩ ds xs t) {x : Writing} (hx : x ∈ xs) :
    ∃ s, t.runs[x.run]? = some s ∧ s.actions[x.index]? = some x.action ∧
      x.action.stores = true := by
  generalize hstart : (⟨w₀, []⟩ : Traffic σ) = t₀ at hledger
  induction hledger with
  | nil => cases hx
  | started workflow stepwise _ ih =>
    obtain ⟨s, hs, hat⟩ := ih hx
    exact ⟨s, getElem?_append_one.mpr (.inl hs), hat⟩
  | @moved ds ds' xs t k s w r _ hs _ ih =>
    obtain ⟨hk, -⟩ := List.getElem?_eq_some_iff.mp hs
    obtain hx | hx := List.mem_append.mp hx
    · obtain ⟨s', hs', hat⟩ := ih hx
      by_cases hrun : x.run = k
      · obtain rfl : s' = s := Option.some.inj ((hrun ▸ hs').symm.trans hs)
        exact ⟨_, (getElem?_set_one hk).mpr (.inl ⟨hrun, rfl⟩), hat⟩
      · exact ⟨s', (getElem?_set_one hk).mpr (.inr ⟨hrun, hs'⟩), hat⟩
    · obtain ⟨d, -, hd⟩ := List.mem_filterMap.mp hx
      obtain ⟨hrun, hat⟩ := Writing.of?_eq_some hd
      exact ⟨_, (getElem?_set_one hk).mpr (.inl ⟨hrun, rfl⟩), hat⟩

/-- What an action that was applied has put stands on the ledger. -/
theorem exists_of_applied (hledger : Ledger h ⟨w₀, []⟩ ds xs t) {k i : Nat} {a : Action}
    (happlied : (k, .applied i a) ∈ ds) (hstores : a.stores = true) :
    ∃ x ∈ xs, x.run = k ∧ x.index = i ∧ x.action = a := by
  generalize hstart : (⟨w₀, []⟩ : Traffic σ) = t₀ at hledger
  induction hledger with
  | nil => cases happlied
  | started _ _ _ ih => exact ih happlied
  | @moved ds ds' xs t j s w r hledger hs hmove ih =>
    subst hstart
    obtain happlied | happlied := List.mem_append.mp happlied
    · obtain ⟨x, hx, hsame⟩ := ih happlied
      exact ⟨x, List.mem_append_left _ hx, hsame⟩
    · obtain ⟨d, hd, hpair⟩ := List.mem_map.mp happlied
      cases hpair
      have hsound := hledger.history.isSound nofun s (List.mem_of_getElem? hs)
      obtain ⟨-, hpresent, -⟩ := hledger.history.appliedBy_prefix hs
      obtain ⟨-, hremaining⟩ := hpresent hmove.phase_ne
      obtain ⟨hreached, hat⟩ := hmove.reached_of_applied hsound hremaining hd hstores
      have hof : Writing.of? k s.actions t.world.shelf (.reached i) = some ⟨k, i, a,
          (t.world.shelf.set (a.param "key") (a.param "value")).1.isOk⟩ := by
        rw [Writing.of?, hat]
        exact if_pos hstores
      have hmem := List.mem_filterMap.mpr ⟨_, hreached, hof⟩
      exact ⟨_, List.mem_append_right xs hmem, rfl, rfl, rfl⟩

end Ledger

/-- Where the same text is under a key, the same workflow is loaded from there. -/
theorem Shelf.loadWorkflow_congr {s s' : Shelf} {key : Text} (h : s'.get? key = s.get? key) :
    s'.loadWorkflow key = s.loadWorkflow key := by
  unfold loadWorkflow
  rw [h]

/-- **What runs put into the storage.** Whatever is done with any number of runs has a ledger. At
every moment of a ledger a steady storage that could be read at first is read: its keys and its
texts are those of the items that it held, with the texts on the ledger that the storage has taken
laid over them in order. No key was taken away, and only under the key of such a text there is
another one. What stands on the ledger was attempted by an action of a run that puts a text into the
storage, and has a key and a text; every such action that was applied stands there. So the workflow
under a key that no such action of any run names is the one that was there at first. -/
theorem Traffic.lays_texts_over (h : Host σ) (w₀ : World σ) {m : OrderedMap}
    (hsteady : w₀.shelf.IsSteady) (hitems : w₀.shelf.items = .ok m.items) :
    (∀ turns, ∃ ds xs, Ledger h ⟨w₀, []⟩ ds xs (Traffic.takeAll h ⟨w₀, []⟩ turns)) ∧
    ∀ ds xs t, Ledger h ⟨w₀, []⟩ ds xs t →
      t.world.shelf.keys = .ok (m.overlay (Writing.texts xs)).keys ∧
      (∀ key, t.world.shelf.get? key = .ok ((m.overlay (Writing.texts xs)).get? key)) ∧
      m.keys <+: (m.overlay (Writing.texts xs)).keys ∧
      (∀ key, (∀ x ∈ xs, x.taken = true → x.key ≠ key) →
        t.world.shelf.get? key = w₀.shelf.get? key) ∧
      (∀ x ∈ xs, (∃ s, t.runs[x.run]? = some s ∧ s.actions[x.index]? = some x.action) ∧
        x.action.kind = .setLocalStorage ∧ x.key ≠ [] ∧ x.value ≠ []) ∧
      (∀ k i a, (k, .applied i a) ∈ ds → a.stores = true →
        ∃ x ∈ xs, x.run = k ∧ x.index = i ∧ x.action = a) ∧
      ∀ key, (∀ s ∈ t.runs, ∀ a ∈ s.actions, a.kind = .setLocalStorage → a.param "key" ≠ key) →
        t.world.shelf.loadWorkflow key = w₀.shelf.loadWorkflow key := by
  refine ⟨Ledger.exists_takeAll h w₀, fun ds xs t hledger => ?_⟩
  obtain ⟨-, hnow⟩ := hledger.writes.items hsteady hitems
  have hget (key : Text) :
      t.world.shelf.get? key = .ok ((m.overlay (Writing.texts xs)).get? key) := by
    rw [Shelf.get?, hnow, OrderedMap.get?_eq_lookup]
    rfl
  have hsame (key : Text) (hkey : ∀ x ∈ xs, x.taken = true → x.key ≠ key) :
      t.world.shelf.get? key = w₀.shelf.get? key := by
    have hothers : ∀ x ∈ Writing.texts xs, x.1 ≠ key := by
      intro x hx
      obtain ⟨x, hmem, rfl⟩ := List.mem_map.mp hx
      obtain ⟨hmem, htaken⟩ := List.mem_filter.mp hmem
      exact hkey x hmem htaken
    rw [hget, OrderedMap.get?_overlay_of_forall_ne m hothers, Shelf.get?, hitems,
      OrderedMap.get?_eq_lookup]
    rfl
  refine ⟨?_, hget, m.keys_prefix_overlay _, hsame, ?_, fun _ _ _ => hledger.exists_of_applied, ?_⟩
  · rw [Shelf.keys, hnow]
    rfl
  · intro x hx
    obtain ⟨s, hs, hat, hstores⟩ := hledger.exists_run hx
    unfold Action.stores at hstores
    simp only [Bool.and_eq_true, decide_eq_true_eq, Bool.not_eq_true', Bool.or_eq_false_iff,
      List.isEmpty_eq_false_iff] at hstores
    exact ⟨⟨s, hs, hat⟩, hstores.1, hstores.2.1, hstores.2.2⟩
  · intro key hkey
    refine Shelf.loadWorkflow_congr (hsame key fun x hx _ => ?_)
    obtain ⟨s, hs, hat, hstores⟩ := hledger.exists_run hx
    unfold Action.stores at hstores
    rw [Bool.and_eq_true, decide_eq_true_eq] at hstores
    exact hkey s (List.mem_of_getElem? hs) x.action (List.mem_of_getElem? hat) hstores.1

/-- While one run that has stored a name asks for another, a second run tries to store a text
without bytes: the file comes to hold the name alone. -/
theorem Traffic.lays_texts_over_missing_file :
    let greets : Workflow := ⟨"Go", [⟨"a1", .setLocalStorage, some [("key", "name"),
      ("value", "Eve")]⟩, ⟨"a2", .promptAndShow, none⟩]⟩
    let breaks : Workflow := ⟨"Go", [⟨"a1", .setLocalStorage, some [("key", "half"),
      ("value", [.lone 0])]⟩]⟩
    let w : World HostScript := {
      surface := .fresh, sequencer := .paced 0, host := { suspended := ["prompt"] }
      shelf := ⟨.file ⟨false, ["data", "store.json"]⟩, ⟨["home"], [(["home"], .directory)], []⟩⟩ }
    let t := Traffic.takeAll HostScript.host ⟨w, []⟩
      [.start (some greets) false, .start (some breaks) false, .resume 0, .resume 1]
    w.shelf.IsSteady ∧ w.shelf.items = .ok OrderedMap.empty.items ∧
      (∃ ds xs, Ledger HostScript.host ⟨w, []⟩ ds xs t ∧
        t.world.shelf.keys = .ok (OrderedMap.empty.overlay (Writing.texts xs)).keys) ∧
      t.world.shelf.items = .ok [("name", "Eve")] := by
  intro greets breaks w t
  have hsteady : w.shelf.IsSteady := by
    rintro _ ⟨rfl⟩
    exact .inr ⟨.of_entries rfl (by decide), [], ["data", "store.json"], ["home"], rfl, rfl,
      by decide⟩
  have hitems : w.shelf.items = .ok OrderedMap.empty.items := by decide +kernel
  obtain ⟨hall, hlaid⟩ := Traffic.lays_texts_over HostScript.host w hsteady hitems
  obtain ⟨ds, xs, hledger⟩ := hall [.start (some greets) false, .start (some breaks) false,
    .resume 0, .resume 1]
  exact ⟨hsteady, hitems, ⟨ds, xs, hledger, (hlaid ds xs t hledger).1⟩, by decide +kernel⟩

/-- A path that steps back behind a missing directory may come to lead to another file when a text
is put in vain: the storage is then not what it was with the taken texts laid over it. -/
theorem Traffic.not_always_laid_over :
    ¬ ∀ (w₀ : World HostScript) (m : OrderedMap) (ds : List (Nat × Deed)) (xs : List Writing)
      (t : Traffic HostScript), w₀.shelf.files.IsTree → w₀.shelf.items = .ok m.items →
        Ledger HostScript.host ⟨w₀, []⟩ ds xs t →
        t.world.shelf.keys = .ok (m.overlay (Writing.texts xs)).keys := by
  intro h
  let breaks : Workflow := ⟨"Go", [⟨"a1", .setLocalStorage, some [("key", "name"),
    ("value", [.lone 0])]⟩]⟩
  -- the file holds the object in which the text under the key a is 1
  let object : Bytes := [123, 34, 97, 34, 58, 32, 34, 49, 34, 125]
  let w : World HostScript := {
    surface := .fresh, sequencer := .paced 0, host := {}
    shelf := ⟨.file ⟨false, ["new", "..", "store.json"]⟩,
      ⟨["home"], [(["home"], .directory), (["home", "store.json"], .file object)], []⟩⟩ }
  let t := Traffic.takeAll HostScript.host ⟨w, []⟩ [.start (some breaks) false, .resume 0]
  have htree : w.shelf.files.IsTree := .of_entries rfl (by decide)
  have hitems : w.shelf.items = .ok OrderedMap.empty.items := by decide +kernel
  have hkeys : t.world.shelf.keys = .ok ["a"] := by decide +kernel
  have hnames : ∀ s ∈ t.runs, ∀ a ∈ s.actions, a.param "key" ≠ "a" := by decide +kernel
  obtain ⟨ds, xs, hledger⟩ := Ledger.exists_takeAll HostScript.host w
    [.start (some breaks) false, .resume 0]
  have hlaid := h w .empty ds xs t htree hitems hledger
  -- no text on the ledger has the key that is there now
  have hothers : ∀ x ∈ Writing.texts xs, x.1 ≠ "a" := by
    intro x hx
    obtain ⟨x, hmem, rfl⟩ := List.mem_map.mp hx
    obtain ⟨s, hs, hat, -⟩ := hledger.exists_run (List.mem_filter.mp hmem).1
    exact hnames s (List.mem_of_getElem? hs) x.action (List.mem_of_getElem? hat)
  have hnone := OrderedMap.get?_overlay_of_forall_ne .empty hothers
  have hmem : ("a" : Text) ∈ (OrderedMap.empty.overlay (Writing.texts xs)).keys := by
    rw [← Except.ok.inj (hkeys.symm.trans hlaid)]
    exact List.mem_singleton_self _
  have hsome := OrderedMap.isSome_get? (OrderedMap.empty.overlay (Writing.texts xs)) "a"
  rw [hnone, decide_eq_true hmem] at hsome
  cases hsome

end PushButton
