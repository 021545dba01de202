import PushButton.Proofs.Run.Storing
import PushButton.Proofs.Storage.OrderedMap

/-!
# What runs read from the storage

An action that looks a text up puts out one line about it. Whatever calls of the storage and runs on
the surface came before, in any order, the line shows the text that was put under the key last and
not taken away since, and says that there is none when there is none.
-/

namespace PushButton

variable {σ : Type}

/-! ## Calls that were carried out -/

/-- What is under a key after a call, given what was there before. -/
def StorageCall.leaves (key : Text) (before : Option Text) : StorageCall → Option Text
  | .set k value => if k = key then some value else before
  | .remove k => if k = key then none else before
  | .clear => none
  | .get _ | .keys | .size | .contains _ => before

/-- What was put under a key last and not taken away since, given what was there at first. -/
def StorageCall.latest (key : Text) (first : Option Text) (cs : List StorageCall) : Option Text :=
  cs.foldl (leaves key) first

namespace OrderedMap

/-- The map after calls. -/
def after (m : OrderedMap) (cs : List StorageCall) : OrderedMap :=
  cs.foldl (fun m c => (m.call c).2) m

/-- Calls after other ones. -/
theorem after_append (m : OrderedMap) (cs cs' : List StorageCall) :
    m.after (cs ++ cs') = (m.after cs).after cs' := List.foldl_append

/-- Under a key is what a call leaves there. -/
theorem get?_call (m : OrderedMap) (c : StorageCall) (key : Text) :
    (m.call c).2.get? key = c.leaves key (m.get? key) := by
  cases c with
  | set k value => exact (m.get?_set k value key).trans (by simp only [StorageCall.leaves, eq_comm])
  | remove k => exact (m.get?_remove k key).trans (by simp only [StorageCall.leaves, eq_comm])
  | clear | get | keys | size | contains => rfl

/-- Under a key is what was put there last. -/
theorem get?_after (m : OrderedMap) (cs : List StorageCall) (key : Text) :
    (m.after cs).get? key = StorageCall.latest key (m.get? key) cs := by
  unfold after StorageCall.latest
  induction cs generalizing m with
  | nil => rfl
  | cons c cs ih => rw [List.foldl_cons, List.foldl_cons, ih, get?_call]

/-- Texts that are laid over a map are put under their keys. -/
theorem overlay_eq_after (m : OrderedMap) (texts : StoredItems) :
    m.overlay texts = m.after (texts.map fun x => .set x.1 x.2) := by
  unfold overlay after
  rw [List.foldl_map]
  rfl

end OrderedMap

namespace Shelf

/-- A call, if the storage carries it out. -/
def carriedOut (s : Shelf) (c : StorageCall) : List StorageCall :=
  if (s.call c).1.isOk = true then [c] else []

/-- A call that changes the storage changes the items if it is carried out. -/
theorem items_call_of {s : Shelf} {m : OrderedMap} {c : StorageCall}
    (out : Except StorageError Unit × Shelf) (hcall : s.call c = (out.1.map fun _ => .done, out.2))
    (hout : out.2.items = .ok (if out.1.isOk = true then (m.call c).2.items else m.items)) :
    (s.call c).2.items = .ok (m.after (s.carriedOut c)).items := by
  obtain ⟨res, s'⟩ := out
  unfold carriedOut
  rw [hcall]
  cases res with
  | error e => exact hout
  | ok u => exact hout

/-- **What a call makes of the items.** A call that a steady storage carries out changes its items
as it changes a map with these items, and any other call leaves them as they are; the storage stays
steady. -/
theorem IsSteady.call {s : Shelf} {m : OrderedMap} (h : s.IsSteady) (hitems : s.items = .ok m.items)
    (c : StorageCall) :
    (s.call c).2.IsSteady ∧ (s.call c).2.items = .ok (m.after (s.carriedOut c)).items := by
  have hreads (hcall : (s.call c).2 = s) (hsame : (m.call c).2 = m) :
      (s.call c).2.IsSteady ∧ (s.call c).2.items = .ok (m.after (s.carriedOut c)).items := by
    have hafter : m.after (s.carriedOut c) = m := by
      unfold carriedOut
      split
      · exact hsame
      · rfl
    rw [hcall, hafter]
    exact ⟨h, hitems⟩
  cases c with
  | get | keys | size | contains => exact hreads rfl rfl
  | set key value =>
    obtain ⟨hsteady, hset⟩ := h.set hitems key value
    rw [← OrderedMap.items_set] at hset
    exact ⟨hsteady, items_call_of _ rfl hset⟩
  | clear =>
    obtain ⟨hsteady, hclear⟩ := h.write hitems [] fun _ _ => List.nodup_nil
    exact ⟨hsteady, items_call_of s.clear rfl hclear⟩
  | remove key =>
    by_cases hthere : (Json.lookup key m.items).isSome = true
    · have hremove : s.remove key = s.write (m.remove key).items := by
        rw [remove, hitems]
        exact if_pos hthere
      obtain ⟨hsteady, hwrite⟩ := h.write hitems _ fun _ _ => (m.remove key).nodup
      rw [← hremove] at hsteady hwrite
      exact ⟨hsteady, items_call_of _ rfl hwrite⟩
    · have hremove : s.remove key = (.ok (), s) := by
        rw [remove, hitems]
        exact if_neg hthere
      have hnone : Json.lookup key m.items = none := by simpa using hthere
      exact hreads (congrArg (·.2) hremove) (OrderedMap.remove_of_lookup_eq_none hnone)

end Shelf

/-! ## Uses of a storage -/

/-- What is done with a storage and the runs on a surface. -/
inductive StorageUse where
  /-- The storage is called. -/
  | call (c : StorageCall)
  /-- A turn of the runs is taken. -/
  | turn (turn : Turn)
  /-- A workflow is run as a whole. -/
  | run (workflow : Option Workflow)
deriving DecidableEq, Repr

namespace Traffic

/-- The storage is called beside the runs. -/
def call (t : Traffic σ) (c : StorageCall) : Traffic σ :=
  { t with world := { t.world with shelf := (t.world.shelf.call c).2 } }

/-- The storage is used. -/
def use (h : Host σ) (t : Traffic σ) : StorageUse → Traffic σ
  | .call c => t.call c
  | .turn turn => t.take h turn
  | .run workflow =>
    let started := { t with runs := t.runs ++ [StartedRun.new workflow false] }
    started.drive t.runs.length fun s => (·.1) <$> s.run.advance h {}

/-- The storage is used several times. -/
def useAll (h : Host σ) (t : Traffic σ) (uses : List StorageUse) : Traffic σ := uses.foldl (use h) t

end Traffic

/-- The calls that a storage has carried out: calls beside the runs, and the texts that the actions
of the runs have put. -/
inductive Usage (h : Host σ) (t₀ : Traffic σ) : List StorageCall → Traffic σ → Prop
  /-- Nothing was done. -/
  | nil : Usage h t₀ [] t₀
  /-- The storage was called beside the runs. -/
  | called {cs : List StorageCall} {t : Traffic σ} (c : StorageCall) : Usage h t₀ cs t →
      Usage h t₀ (cs ++ t.world.shelf.carriedOut c) (t.call c)
  /-- A run was started. -/
  | started {cs : List StorageCall} {t : Traffic σ} (workflow : Option Workflow) (stepwise : Bool) :
      Usage h t₀ cs t → Usage h t₀ cs { t with runs := t.runs ++ [.new workflow stepwise] }
  /-- A run has made a move, in which it may have put a text. -/
  | moved {cs : List StorageCall} {ds : List Deed} {t : Traffic σ} {k : Nat} {s : StartedRun}
      {w : World σ} {r : Run} : Usage h t₀ cs t → t.runs[k]? = some s →
      Move h (t.world, s.run) ds (w, r) →
      Usage h t₀ (cs ++ (Writing.texts (ds.filterMap
          (Writing.of? k s.actions t.world.shelf))).map fun x => .set x.1 x.2)
        ⟨w, t.runs.set k { s with run := r }⟩

namespace StartedRun

/-- A run that is under way stands at its place in its workflow. -/
structure IsPlaced (s : StartedRun) : Prop where
  /-- What waits for the host is the request of the next action. -/
  sound : s.run.IsSound
  /-- The actions behind its place are left. -/
  left : s.run.phase ≠ .ended → s.run.remaining = s.actions.drop s.run.index

/-- A run that was just started stands at its place. -/
theorem isPlaced_new (workflow : Option Workflow) (stepwise : Bool) :
    (new workflow stepwise).IsPlaced where
  sound := isSound_new workflow stepwise
  left _ := by
    change (Run.ofWorkflow workflow).remaining = List.drop (Run.ofWorkflow workflow).index _
    rw [Run.remaining_ofWorkflow, Run.index_ofWorkflow]
    rfl

/-- A run that has made a move stands at its place. -/
theorem IsPlaced.moved {h : Host σ} {s : StartedRun} (hs : s.IsPlaced) {w w' : World σ} {r : Run}
    {ds : List Deed} (hmove : Move h (w, s.run) ds (w', r)) : IsPlaced { s with run := r } where
  sound := hmove.isSound
  left hph := by
    obtain ⟨taken, left, hrem, -, -, hgoes⟩ := hmove.takes
    obtain ⟨hleft, hindex, -⟩ := hgoes hph
    have hactions := hs.left hmove.phase_ne
    change r.remaining = s.actions.drop r.index
    rw [hleft, hindex, ← List.drop_drop, ← hactions]
    dsimp only at hrem
    rw [hrem, List.drop_left]

end StartedRun

namespace Usage

variable {h : Host σ} {t₀ t : Traffic σ} {w₀ : World σ} {cs : List StorageCall}

/-- The runs stand at their places. -/
theorem isPlaced (hu : Usage h ⟨w₀, []⟩ cs t) : ∀ s ∈ t.runs, s.IsPlaced := by
  generalize hstart : (⟨w₀, []⟩ : Traffic σ) = t₀ at hu
  induction hu with
  | nil =>
    subst hstart
    exact nofun
  | called c _ ih => exact ih
  | started workflow stepwise _ ih =>
    intro s hs
    obtain hs | hs := List.mem_append.mp hs
    · exact ih s hs
    · rw [List.mem_singleton.mp hs]
      exact StartedRun.isPlaced_new workflow stepwise
  | moved _ hs hmove ih =>
    intro s' hs'
    obtain hs' | rfl := List.mem_or_eq_of_mem_set hs'
    · exact ih s' hs'
    · exact (ih _ (List.mem_of_getElem? hs)).moved hmove

/-- **The storage holds what was put there last.** -/
theorem items (hu : Usage h ⟨w₀, []⟩ cs t) (hsteady : w₀.shelf.IsSteady) {m : OrderedMap}
    (hitems : w₀.shelf.items = .ok m.items) :
    t.world.shelf.IsSteady ∧ t.world.shelf.items = .ok (m.after cs).items := by
  generalize hstart : (⟨w₀, []⟩ : Traffic σ) = t₀ at hu
  induction hu with
  | nil =>
    subst hstart
    exact ⟨hsteady, hitems⟩
  | called c _ ih =>
    obtain ⟨hsteady', hnow⟩ := ih
    rw [OrderedMap.after_append]
    exact hsteady'.call hnow c
  | started _ _ _ ih => exact ih
  | @moved cs ds t k s w r hu hs hmove ih =>
    obtain ⟨hsteady', hnow⟩ := ih
    subst hstart
    have hplaced := hu.isPlaced s (List.mem_of_getElem? hs)
    have hwrites := hmove.writes (hplaced.left hmove.phase_ne) k
    rw [OrderedMap.after_append, ← OrderedMap.overlay_eq_after]
    exact hwrites.items hsteady' hnow

/-- Under a key the storage has what was put there last. -/
theorem get? (hu : Usage h ⟨w₀, []⟩ cs t) (hsteady : w₀.shelf.IsSteady) {m : OrderedMap}
    (hitems : w₀.shelf.items = .ok m.items) (key : Text) :
    t.world.shelf.get? key = .ok (StorageCall.latest key (m.get? key) cs) := by
  rw [Shelf.get?, (hu.items hsteady hitems).2, ← OrderedMap.get?_after, OrderedMap.get?_eq_lookup]
  rfl

/-- What the runs do makes the usage longer. -/
theorem ofHistory {ds : List (Nat × Deed)} {t' : Traffic σ} (hu : Usage h t₀ cs t)
    (hist : History h t ds t') : ∃ cs', Usage h t₀ (cs ++ cs') t' := by
  induction hist with
  | nil => exact ⟨[], by rwa [List.append_nil]⟩
  | started workflow stepwise _ ih =>
    obtain ⟨cs', hu'⟩ := ih
    exact ⟨cs', hu'.started workflow stepwise⟩
  | moved _ hs hmove ih =>
    obtain ⟨cs', hu'⟩ := ih
    exact ⟨_, List.append_assoc .. ▸ hu'.moved hs hmove⟩

/-- What is done with the storage and the runs makes the usage longer. -/
theorem use (hu : Usage h ⟨w₀, []⟩ cs t) (u : StorageUse) :
    ∃ cs', Usage h ⟨w₀, []⟩ cs' (t.use h u) := by
  have hsound : ∀ s ∈ t.runs, s.run.IsSound := fun s hs => (hu.isPlaced s hs).sound
  have hnil : History h t [] t := .nil
  cases u with
  | call c => exact ⟨_, hu.called c⟩
  | turn turn =>
    obtain ⟨ds, hist⟩ := hnil.take hsound turn
    obtain ⟨cs', hu'⟩ := hu.ofHistory hist
    exact ⟨_, hu'⟩
  | run workflow =>
    have hstarted := hnil.started workflow false
    obtain ⟨ds, hist⟩ := hstarted.drive (k := t.runs.length)
      (f := fun s => (·.1) <$> s.run.advance h {}) fun s _ => by
        obtain ⟨ds', hmoves, -⟩ := Run.exists_moves_advance h {} s.run t.world
        exact ⟨ds', hmoves⟩
    obtain ⟨cs', hu'⟩ := hu.ofHistory hist
    exact ⟨_, hu'⟩

/-- Whatever is done with a storage and runs is a usage. -/
theorem exists_useAll (h : Host σ) (w₀ : World σ) (uses : List StorageUse) :
    ∃ cs, Usage h ⟨w₀, []⟩ cs (Traffic.useAll h ⟨w₀, []⟩ uses) := by
  suffices hlonger : ∀ t cs, Usage h ⟨w₀, []⟩ cs t →
      ∃ cs', Usage h ⟨w₀, []⟩ cs' (t.useAll h uses) from hlonger _ [] .nil
  induction uses with
  | nil => exact fun t cs hu => ⟨cs, hu⟩
  | cons u rest ih =>
    intro t cs hu
    obtain ⟨cs', hu'⟩ := hu.use u
    exact ih (t.use h u) cs' hu'

end Usage

/-! ## Looking texts up -/

/-- An action that makes no request does not reload the surface. -/
theorem Action.start_of_request?_eq_none {h : Host σ} {a : Action} (hr : a.request? = none)
    (mayWait : Bool) (w : World σ) {b : Begun}
    (hstart : ((a.start h mayWait).exec w).1 = .ok b) : b = .applied .proceed := by
  unfold start at hstart
  rw [Act.exec_bind, Act.exec_log] at hstart
  dsimp only at hstart
  rw [Act.exec_bind, Act.exec_get, hr] at hstart
  dsimp only at hstart
  rw [Act.exec_bind] at hstart
  split at hstart
  · cases hstart
    rfl
  · cases hstart

/-- An action that looks a text up makes no request, and puts out the line about the text alone. -/
theorem Action.plain_of_get {a : Action} (hkind : a.kind = .getLocalStorage) (s : Shelf)
    (reply : Option Reply) : a.request? = none ∧
      a.lines s reply = shownLines (a.param "key") s ∧ a.images = [] := by
  unfold request? lines images
  rw [hkind]
  exact ⟨rfl, rfl, rfl⟩

namespace Run

variable {h : Host σ} {r : Run} {a : Action} {mayWait : Bool} {w w' : World σ}

/-- An attempt in which an action is taken up is about the next action, which was not begun before.
-/
theorem attempt_of_reached {i : Nat} (hreached : .reached i ∈ r.attemptDeeds h mayWait a w) :
    i = r.index ∧ r.attemptDeeds h mayWait a w =
        [.reached r.index, .put (a.lines w.shelf (a.reply? h mayWait w.host)) a.images] ∧
      ∃ w₁, (r.attempt h mayWait a).exec w = (a.start h mayWait).exec w₁ := by
  unfold attemptDeeds at hreached ⊢
  unfold attempt
  split at hreached
  · simp at hreached
  · refine ⟨by simpa using hreached, rfl, ((r.announce a).exec w).2, ?_⟩
    rw [Act.exec_bind]
    rfl

/-- An attempt in which an action is taken up that looks a text up puts out the line about the text,
and applies the action unless it fails. -/
theorem attempt_of_reached_get {rest actions : List Action} {i : Nat} {b : Action}
    (hreached : .reached i ∈ r.attemptDeeds h mayWait b w) (hrem : r.remaining = b :: rest)
    (hactions : r.remaining = actions.drop r.index) (hat : actions[i]? = some a)
    (hkind : a.kind = .getLocalStorage) :
    r.attemptDeeds h mayWait b w =
        [.reached i, .put (Action.shownLines (a.param "key") w.shelf) []] ∧
      ∀ begun w', (r.attempt h mayWait b).exec w = (.ok begun, w') → begun = .applied .proceed := by
  obtain ⟨rfl, hdeeds, w₁, hexec⟩ := attempt_of_reached hreached
  rw [← List.head?_drop, ← hactions, hrem] at hat
  obtain rfl := Option.some.inj hat
  obtain ⟨hrequest, hlines, himages⟩ := b.plain_of_get hkind w.shelf (b.reply? h mayWait w.host)
  refine ⟨by rw [hdeeds, hlines, himages], fun begun w' hattempt => ?_⟩
  rw [hexec] at hattempt
  exact Action.start_of_request?_eq_none hrequest mayWait w₁ (congrArg (·.1) hattempt)

/-- An attempt that applies an action without a reload is a move. -/
theorem exists_move_of_applied (h : Host σ) (mayWait : Bool) (w : World σ) {rest : List Action}
    (hinside : r.phase.isInside = true) (hrem : r.remaining = a :: rest)
    (happlied : ((r.attempt h mayWait a).exec w).1 = .ok (.applied .proceed)) :
    ∃ w', w' = ((r.attempt h mayWait a).exec w).2 ∧
      Move h (w, r) (r.attemptDeeds h mayWait a w ++ [.applied r.index a])
        (w', { r.next with phase := .between }) := by
  generalize hexec : (r.attempt h mayWait a).exec w = out at happlied
  obtain ⟨res, w'⟩ := out
  obtain rfl : res = .ok (.applied .proceed) := happlied
  exact ⟨w', rfl, .proceeds hinside hrem hexec⟩

end Run

/-- A move in which an action is taken up that looks a text up puts out the line about the text, and
no other line. -/
theorem Move.follows_get {h : Host σ} {x y : World σ × Run} {ds : List Deed} (hmove : Move h x ds y)
    (hsound : x.2.IsSound) {actions : List Action}
    (hactions : x.2.remaining = actions.drop x.2.index) {i : Nat} {a : Action}
    (hreached : .reached i ∈ ds) (hat : actions[i]? = some a) (hkind : a.kind = .getLocalStorage) :
    y.1.surface.output = x.1.surface.output ++ Action.shownLines (a.param "key") x.1.shelf := by
  have houtput := (hmove.follows hsound).output
  cases hmove with
  | idles | drops | begins | beginFails | waits | finishes | ends | cancelsPacing | cancelsAsking
  | closes => simp at hreached
  | asks _ hrem hexec =>
    obtain ⟨-, hresult⟩ := Run.attempt_of_reached_get hreached hrem hactions hat hkind
    cases hresult _ _ hexec
  | reloads _ hrem hexec | reloadFails _ hrem hexec =>
    have hreached := (List.mem_append.mp hreached).resolve_right (by simp)
    obtain ⟨-, hresult⟩ := Run.attempt_of_reached_get hreached hrem hactions hat hkind
    cases hresult _ _ hexec
  | proceeds _ hrem | fails _ hrem =>
    have hreached := (List.mem_append.mp hreached).resolve_right (by simp)
    obtain ⟨hdeeds, -⟩ := Run.attempt_of_reached_get hreached hrem hactions hat hkind
    rw [hdeeds] at houtput
    simpa [Deed.onto, Deed.clears, Deed.lines] using houtput

/-- The line about what is under a key: the text, or that there is none. -/
def Action.itemLine (key : Text) (value : Option Text) : Text :=
  key ++ ": " ++ value.getD "Not found"

/-- The line says that there is nothing exactly if there is nothing, or that very text. -/
theorem Action.itemLine_eq_iff (key : Text) (value : Option Text) :
    itemLine key value = key ++ ": " ++ "Not found" ↔
      value = none ∨ value = some ("Not found" : Text) := by
  unfold itemLine
  rw [List.append_cancel_left_eq]
  cases value with
  | none => simp
  | some text => simp

/-- What is shown about a key is the line about the text that is there, which is not empty. -/
theorem Action.shownLines_of_get? {key : Text} {s : Shelf} {value : Option Text} (hkey : key ≠ [])
    (hget : s.get? key = .ok value) (hvalue : value ≠ some []) :
    shownLines key s = [itemLine key value] := by
  unfold shownLines itemLine Text.orElse
  rw [if_neg (by simpa using hkey), hget]
  cases value with
  | none => rfl
  | some text =>
    have htext : text ≠ [] := fun h => hvalue (congrArg some h)
    simp [htext]

/-- **Runs read what was stored last.** Whatever calls of a readable storage and runs on a surface
come one after the other, in whatever order, is a usage. At every moment of a usage the storage has
under every key what was put there last and not taken away since, by a call or by an action of a
run. A move that takes up an action which looks a key up puts out one line, about that text: it says
that there is none exactly if there is none, or that very text is there. An empty text is shown as
if there were none, so what was put there last must not be empty. -/
theorem Traffic.reads_latest (h : Host σ) (w₀ : World σ) {m : OrderedMap}
    (hsteady : w₀.shelf.IsSteady) (hitems : w₀.shelf.items = .ok m.items) :
    (∀ uses, ∃ cs, Usage h ⟨w₀, []⟩ cs (Traffic.useAll h ⟨w₀, []⟩ uses)) ∧
    ∀ cs t, Usage h ⟨w₀, []⟩ cs t →
      (∀ key, t.world.shelf.get? key = .ok (StorageCall.latest key (m.get? key) cs)) ∧
      ∀ (k : Nat) (s : StartedRun) (ds : List Deed) (w : World σ) (r : Run) (i : Nat) (a : Action),
        t.runs[k]? = some s → Move h (t.world, s.run) ds (w, r) →
        .reached i ∈ ds → s.actions[i]? = some a → a.kind = .getLocalStorage →
        a.param "key" ≠ [] →
        StorageCall.latest (a.param "key") (m.get? (a.param "key")) cs ≠ some [] →
          let value := StorageCall.latest (a.param "key") (m.get? (a.param "key")) cs
          w.surface.output = t.world.surface.output ++ [Action.itemLine (a.param "key") value] ∧
          (Action.itemLine (a.param "key") value = a.param "key" ++ ": " ++ "Not found" ↔
            value = none ∨ value = some ("Not found" : Text)) := by
  refine ⟨Usage.exists_useAll h w₀, fun cs t hu => ?_⟩
  have hget := hu.get? hsteady hitems
  refine ⟨hget, fun k s ds w r i a hs hmove hreached hat hkind hkey hvalue => ?_⟩
  have hplaced := hu.isPlaced s (List.mem_of_getElem? hs)
  have houtput := hmove.follows_get hplaced.sound (hplaced.left hmove.phase_ne) hreached hat hkind
  have hlines := Action.shownLines_of_get? hkey (hget (a.param "key")) hvalue
  exact ⟨houtput.trans (congrArg _ hlines), Action.itemLine_eq_iff _ _⟩

/-- A run that looks a name up shows the one that an earlier run has put into the file, over the one
that was put there by a call. -/
theorem Traffic.reads_name_of_earlier_run :
    let saves : Workflow := ⟨"Go", [⟨"a1", .setLocalStorage, some [("key", "name"),
      ("value", "Eve")]⟩]⟩
    let asks : Action := ⟨"a1", .getLocalStorage, some [("key", "name")]⟩
    let w : World HostScript := {
      surface := .fresh, sequencer := .paced 5, host := {}
      shelf := ⟨.file ⟨false, ["store.json"]⟩, ⟨["home"], [(["home"], .directory)], []⟩⟩ }
    let t := Traffic.useAll HostScript.host ⟨w, []⟩ [.call (.set "name" "Ann"),
      .run (some saves), .turn (.start (some ⟨"Go", [asks]⟩) false), .turn (.resume 1)]
    w.shelf.IsSteady ∧ w.shelf.items = .ok OrderedMap.empty.items ∧
      ∃ cs s ds w' r, Usage HostScript.host ⟨w, []⟩ cs t ∧ t.runs[1]? = some s ∧
        Move HostScript.host (t.world, s.run) ds (w', r) ∧ .reached 0 ∈ ds ∧
        s.actions[0]? = some asks ∧
        StorageCall.latest "name" (OrderedMap.empty.get? "name") cs ≠ some [] ∧
        w'.surface.output = [("name: Eve" : Text)] := by
  intro saves asks w t
  have hsteady : w.shelf.IsSteady := Shelf.isSteady_of_hasDirectory (by decide)
  have hitems : w.shelf.items = .ok OrderedMap.empty.items := by decide +kernel
  obtain ⟨hall, hreads⟩ := Traffic.reads_latest HostScript.host w hsteady hitems
  obtain ⟨cs, hu⟩ := hall [.call (.set "name" "Ann"), .run (some saves),
    .turn (.start (some ⟨"Go", [asks]⟩) false), .turn (.resume 1)]
  obtain ⟨hget, hline⟩ := hreads cs t hu
  have hlatest : StorageCall.latest "name" (OrderedMap.empty.get? "name") cs =
    some ("Eve" : Text) :=
    Except.ok.inj ((hget "name").symm.trans (by decide +kernel))
  -- the run waits in front of its action
  let s : StartedRun := t.runs[1]?.getD (.new none false)
  have hs : t.runs[1]? = some s := by decide +kernel
  have hinside : s.run.phase.isInside = true := by decide +kernel
  have hrem : s.run.remaining = [asks] := by decide +kernel
  obtain ⟨w', -, hmove⟩ := Run.exists_move_of_applied HostScript.host false t.world
    hinside hrem (by decide +kernel)
  have hreached : .reached 0 ∈ s.run.attemptDeeds HostScript.host false asks t.world ++
    [.applied s.run.index asks] := by decide +kernel
  have hat : s.actions[0]? = some asks := by decide +kernel
  have hvalue : StorageCall.latest "name" (OrderedMap.empty.get? "name") cs ≠ some [] := by
    rw [hlatest]
    decide
  obtain ⟨houtput, -⟩ :=
    hline 1 s _ w' _ 0 asks hs hmove hreached hat rfl (by decide) hvalue
  have hkey : asks.param "key" = "name" := by decide
  rw [hkey, hlatest] at houtput
  refine ⟨hsteady, hitems, cs, s, _, w', _, hu, hs, hmove, hreached, hat, hvalue, ?_⟩
  rw [houtput]
  decide +kernel

/-- An empty text that is there is shown as if there were none. -/
theorem Traffic.not_always_reads_latest :
    ¬ ∀ (w₀ : World HostScript) (m : OrderedMap) (cs : List StorageCall) (t : Traffic HostScript)
      (k : Nat) (s : StartedRun) (ds : List Deed) (w : World HostScript) (r : Run) (i : Nat)
      (a : Action), w₀.shelf.IsSteady → w₀.shelf.items = .ok m.items →
      Usage HostScript.host ⟨w₀, []⟩ cs t → t.runs[k]? = some s →
      Move HostScript.host (t.world, s.run) ds (w, r) → .reached i ∈ ds →
      s.actions[i]? = some a → a.kind = .getLocalStorage → a.param "key" ≠ [] →
        w.surface.output = t.world.surface.output ++ [Action.itemLine (a.param "key")
          (StorageCall.latest (a.param "key") (m.get? (a.param "key")) cs)] := by
  intro hall
  let asks : Action := ⟨"a1", .getLocalStorage, some [("key", "k")]⟩
  let w : World HostScript := {
    surface := .fresh, sequencer := .paced 5, host := {}
    shelf := ⟨.memory [("k", "")], ⟨[], [], []⟩⟩ }
  let m : OrderedMap := OrderedMap.empty.set "k" ""
  let uses : List StorageUse := [.turn (.start (some ⟨"Go", [asks]⟩) false), .turn (.resume 0)]
  let t := Traffic.useAll HostScript.host ⟨w, []⟩ uses
  have hsteady : w.shelf.IsSteady := Shelf.isSteady_memory _ _
  have hitems : w.shelf.items = .ok m.items := by decide +kernel
  obtain ⟨cs, hu⟩ := Usage.exists_useAll HostScript.host w uses
  have hlatest : StorageCall.latest "k" (m.get? "k") cs = some ("" : Text) :=
    Except.ok.inj ((hu.get? hsteady hitems "k").symm.trans (by decide +kernel))
  let s : StartedRun := t.runs[0]?.getD (.new none false)
  have hinside : s.run.phase.isInside = true := by decide +kernel
  have hrem : s.run.remaining = [asks] := by decide +kernel
  obtain ⟨w', hw', hmove⟩ := Run.exists_move_of_applied HostScript.host false t.world
    hinside hrem (by decide +kernel)
  have hline := hall w m cs t 0 s _ w' _ 0 asks hsteady hitems hu (by decide +kernel) hmove
    (by decide +kernel) (by decide +kernel) rfl (by decide)
  have hkey : asks.param "key" = "k" := by decide
  rw [hkey, hlatest, hw'] at hline
  revert hline
  decide +kernel

end PushButton
