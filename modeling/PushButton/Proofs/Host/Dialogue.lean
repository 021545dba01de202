import PushButton.Proofs.Run.Scenes
import PushButton.Proofs.Text.Lines

/-!
# Dialogs on a terminal

On a terminal a dialog takes one line of the input, and no other action takes any. So however often
runs follow each other, the dialogs meet the lines in order, one each, whatever else is in between:
a question puts out the line that it meets, and a dialog that meets none leaves everything as it is.
-/

namespace PushButton

namespace Action

/-- An action that shows a dialog. -/
def isDialog (a : Action) : Bool := a.kind = .alert || a.kind = .promptAndShow

/-- An action shows a dialog when its kind is that of a message or of a question. -/
theorem isDialog_iff (a : Action) :
    a.isDialog = true ↔ a.kind = .alert ∨ a.kind = .promptAndShow := by
  simp [isDialog]

/-- An action that shows a dialog asks for one. -/
theorem exists_request?_of_isDialog (a : Action) (ha : a.isDialog = true) :
    ∃ r, a.request? = some r ∧ r.isDialog = true := by
  unfold request?
  rcases a.isDialog_iff.mp ha with hkind | hkind
  · rw [hkind]
    exact ⟨_, rfl, rfl⟩
  · rw [hkind]
    exact ⟨_, rfl, rfl⟩

/-- The actions up to the first one that reloads the surface, which is the last of them. -/
def throughReload : List Action → List Action
  | [] => []
  | a :: rest => if a.kind = .refreshPage then [a] else a :: throughReload rest

end Action

namespace Terminal

/-- The lines of the input that were not yet read. -/
def lines (t : Terminal) : List Text := Text.lines t.input

/-- A terminal gives its first line. -/
theorem head?_lines (t : Terminal) : t.lines.head? = t.readLine.1 := by
  unfold lines readLine
  cases hnext : Text.nextLine? t.input with
  | none =>
    rw [Text.lines_of_nextLine?_eq_none hnext]
    rfl
  | some parts =>
    rw [Text.lines_of_nextLine?_eq_some hnext]
    rfl

/-- A terminal that has given a line has the others left. -/
theorem lines_readLine (t : Terminal) : t.readLine.2.lines = t.lines.tail := by
  unfold lines readLine
  cases hnext : Text.nextLine? t.input with
  | none =>
    have hlines := Text.lines_of_nextLine?_eq_none hnext
    exact hlines.trans (congrArg List.tail hlines).symm
  | some parts =>
    rw [Text.lines_of_nextLine?_eq_some hnext]
    rfl

/-- A question is answered by the first line, without the blanks around it, if there is one. -/
theorem reply_prompt (message : Text) (t : Terminal) :
    (reply (.prompt message) t).1 = .answer (t.lines.head?.map Text.strip) := by
  rw [head?_lines]
  unfold reply
  dsimp only
  split
  · next h => rw [h, Option.map_some]
  · next h => rw [h, Option.map_none]

/-- A terminal refuses at most. -/
theorem obliges : host.Obliges fun _ => True := by
  have hrefuses (r : Request) {t : Terminal} {f : Failure} (hf : (reply r t).1 = .failed f) :
      f.kind = .refused := by
    unfold reply at hf
    cases r with
    | alert message =>
      dsimp only at hf
      split at hf
      · cases hf
      · cases hf
        rfl
    | prompt message =>
      dsimp only at hf
      split at hf
      · cases hf
      · cases hf
    | reload => cases hf
    | close =>
      cases hf
      rfl
  exact ⟨fun _ _ _ => trivial, fun r _ _ _ hf => hrefuses r (Option.some.inj hf),
    fun _ _ _ => trivial, fun r _ _ _ hf => hrefuses r hf⟩

/-! ## What actions do on a terminal -/

variable {a : Action}

/-- The reply of a terminal to the request of an action. -/
theorem reply?_of_request? {r : Request} (hr : a.request? = some r) (t : Terminal) :
    a.reply? host false t = some (reply r t).1 := by
  unfold Action.reply?
  rw [hr]
  rfl

/-- The terminal behind the request of an action. -/
theorem hostAfter_of_request? {r : Request} (hr : a.request? = some r) (t : Terminal) :
    a.hostAfter host t = (reply r t).2.1 := by
  unfold Action.hostAfter
  rw [hr]
  rfl

/-- A dialog takes a line. -/
theorem hostAfter_of_isDialog (ha : a.isDialog = true) (t : Terminal) :
    a.hostAfter host t = t.readLine.2 := by
  obtain ⟨r, hr, hdialog⟩ := a.exists_request?_of_isDialog ha
  rw [hostAfter_of_request? hr]
  cases r with
  | alert message | prompt message =>
    unfold reply
    dsimp only
    split
    · next h => rw [h]
    · next h => rw [h]
  | reload | close => cases hdialog

/-- An action that shows no dialog takes no line. -/
theorem input_hostAfter (ha : a.isDialog = false) (t : Terminal) :
    (a.hostAfter host t).input = t.input := by
  unfold Action.isDialog at ha
  unfold Action.hostAfter Action.request?
  cases hkind : a.kind with
  | alert | promptAndShow =>
    rw [hkind] at ha
    cases ha
  | _ => rfl

/-- On a terminal a run ends exactly behind an action that is to reload the surface. -/
theorem effect_eq (a : Action) (t : Terminal) :
    a.effect (a.reply? host false t) = if a.kind = .refreshPage then .reload else .proceed := by
  unfold Action.effect Action.reply? Action.request?
  cases hkind : a.kind <;> rfl

/-- On a terminal the actions are applied through the first one that reloads the surface. -/
theorem applied_eq (actions : List Action) (t : Terminal) :
    Action.applied host actions t = Action.throughReload actions := by
  induction actions generalizing t with
  | nil => rfl
  | cons a rest ih =>
    unfold Action.applied Action.throughReload
    rw [effect_eq]
    by_cases hkind : a.kind = .refreshPage
    · rw [if_pos hkind, if_pos hkind]
    · rw [if_neg hkind, if_neg hkind]
      exact congrArg (a :: ·) (ih _)

/-- A message changes nothing on the surface. -/
theorem change?_of_alert (hkind : a.kind = .alert) (s : Shelf) (reply : Option Reply)
    (draws : List Nat) : a.change? s reply draws = none := by
  unfold Action.change? Action.lines
  rw [hkind]
  cases reply <;> rfl

/-- A question puts out the first line, without the blanks around it, if there is one. -/
theorem change?_of_prompt (hkind : a.kind = .promptAndShow) (s : Shelf) (t : Terminal)
    (draws : List Nat) : a.change? s (a.reply? host false t) draws =
      t.lines.head?.map fun line => .putLine ("You entered: " ++ line.strip) := by
  rw [reply?_of_request? (r := .prompt _) (by rw [Action.request?, hkind]), reply_prompt]
  unfold Action.change? Action.lines
  rw [hkind]
  cases t.lines.head? with
  | none => rfl
  | some line => rfl

/-- A terminal is not closed, and a line says so. -/
theorem change?_of_close (hkind : a.kind = .closeWindow) (s : Shelf) (t : Terminal)
    (draws : List Nat) : a.change? s (a.reply? host false t) draws =
      some (.putLine "Failed to close window") := by
  rw [reply?_of_request? (r := .close) (by rw [Action.request?, hkind])]
  unfold Action.change? Action.lines reply
  rw [hkind]
  rfl

end Terminal

/-! ## Scenes on a terminal -/

/-- A scene in which a dialog is shown. -/
def Scene.isDialog {σ : Type} (s : Scene σ) : Bool := s.action.isDialog

/-- A dialog meets a line of the input, or none: the storage stays as it is, and so does the surface
when a message is shown; a question puts out the line without the blanks around it, and nothing if
there is none. -/
structure Scene.Meets (s : Scene Terminal) (line? : Option Text) : Prop where
  /-- The storage is as it was. -/
  shelf : s.after.shelf = s.before.shelf
  /-- A message leaves the surface as it is. -/
  alert : s.action.kind = .alert → s.after.surface = s.before.surface
  /-- A question puts out the line. -/
  prompt : s.action.kind = .promptAndShow → s.after.surface =
    match line? with
    | some line => { s.before.surface with
        output := s.before.surface.output ++ ["You entered: " ++ line.strip] }
    | none => s.before.surface

namespace Scene.IsPlayed

variable {s : Scene Terminal}

/-- Unless the surface is reloaded, a scene on a terminal changes the storage and the surface as its
action does. -/
theorem rest_of_ne_reload (hs : s.IsPlayed Terminal.host) (hkind : s.action.kind ≠ .refreshPage) :
    s.after.shelf = s.action.shelfAfter s.before.shelf ∧
      s.after.surface = (s.action.change? s.before.shelf
        (s.action.reply? Terminal.host false s.before.host) s.before.draws).elim s.before.surface
          fun c => c.update s.before.surface := by
  refine hs.rest ?_
  rw [Terminal.effect_eq, if_neg hkind]

/-- A scene without a dialog leaves the input as it is. -/
theorem input (hs : s.IsPlayed Terminal.host) (ha : s.isDialog = false) :
    s.after.host.input = s.before.host.input := by
  rw [hs.host, Terminal.input_hostAfter ha]

/-- A scene with a dialog takes a line. -/
theorem lines (hs : s.IsPlayed Terminal.host) (ha : s.isDialog = true) :
    s.after.host.lines = s.before.host.lines.tail := by
  rw [hs.host, Terminal.hostAfter_of_isDialog ha, Terminal.lines_readLine]

/-- A scene with a dialog meets the first line. -/
theorem meets (hs : s.IsPlayed Terminal.host) (ha : s.isDialog = true) :
    s.Meets s.before.host.lines.head? := by
  obtain ⟨r, hr, -⟩ := s.action.exists_request?_of_isDialog ha
  have hreload : s.action.kind ≠ .refreshPage := by
    rcases s.action.isDialog_iff.mp ha with h | h
    · rw [h]
      decide
    · rw [h]
      decide
  obtain ⟨hshelf, hsurface⟩ := hs.rest_of_ne_reload hreload
  refine ⟨?_, fun halert => ?_, fun hprompt => ?_⟩
  · rw [hshelf, Action.shelfAfter_of_request hr]
  · rw [hsurface, Terminal.change?_of_alert halert]
    rfl
  · rw [hsurface, Terminal.change?_of_prompt hprompt]
    cases s.before.host.lines.head? with
    | none => rfl
    | some line => rfl

/-- A scene that is to close the terminal puts out that this has failed. -/
theorem surface_of_close (hs : s.IsPlayed Terminal.host) (hkind : s.action.kind = .closeWindow) :
    s.after.surface = { s.before.surface with
      output := s.before.surface.output ++ [("Failed to close window" : Text)] } := by
  obtain ⟨-, hsurface⟩ := hs.rest_of_ne_reload (by rw [hkind]; decide)
  rw [hsurface, Terminal.change?_of_close hkind]
  rfl

end Scene.IsPlayed

/-- Every scene that a host goes through is played. -/
theorem Host.GoesThrough.isPlayed {σ : Type} {h : Host σ} {t t' : σ} {scenes : List (Scene σ)}
    (hscenes : h.GoesThrough t scenes t') : ∀ s ∈ scenes, s.IsPlayed h := by
  induction hscenes with
  | nil t => exact List.forall_mem_nil _
  | cons hplayed _ ih => exact List.forall_mem_cons.mpr ⟨hplayed, ih⟩

/-- **Dialogs meet the lines in order.** When a terminal goes through scenes, each dialog has the
lines in front of it that no dialog before it has taken. The induction is on the scenes; only a
dialog moves on in the lines. -/
theorem Terminal.lines_of_goesThrough {t t' : Terminal} {scenes : List (Scene Terminal)}
    (hscenes : host.GoesThrough t scenes t') :
    (∀ j s, (scenes.filter Scene.isDialog)[j]? = some s →
      s.before.host.lines = t.lines.drop j) ∧
      t'.lines = t.lines.drop (scenes.filter Scene.isDialog).length := by
  induction hscenes with
  | nil t => exact ⟨fun j s hs => by simp at hs, rfl⟩
  | @cons x rest t' hplayed _ ih =>
    obtain ⟨hdialogs, hend⟩ := ih
    cases ha : x.isDialog with
    | false =>
      have hlines : x.after.host.lines = x.before.host.lines :=
        congrArg Text.lines (hplayed.input ha)
      rw [List.filter_cons_of_neg (by simp [ha]), ← hlines]
      exact ⟨hdialogs, hend⟩
    | true =>
      have hdrop (j : Nat) : x.after.host.lines.drop j = x.before.host.lines.drop (j + 1) := by
        rw [hplayed.lines ha, List.drop_tail]
      rw [List.filter_cons_of_pos ha]
      refine ⟨fun j s hs => ?_, ?_⟩
      · cases j with
        | zero =>
          obtain rfl := Option.some.inj hs
          rfl
        | succ j => rw [← hdrop, hdialogs j s hs]
      · rw [List.length_cons, ← hdrop, hend]

namespace Run

/-- On a terminal the actions of runs in a row are applied, each run through the first one that
reloads the surface. -/
theorem actions_scenesOfAll {w : World Terminal} (hw : w.IsSafe fun _ => True)
    (workflows : List (Option Workflow)) :
    (scenesOfAll Terminal.host workflows w).map Scene.action =
      workflows.flatMap fun x => Action.throughReload (ofWorkflow x).remaining := by
  induction workflows generalizing w with
  | nil => rfl
  | cons x rest ih =>
    obtain ⟨w', hcomplete, hsafe, -, -, hactions⟩ := goesThrough_complete Terminal.obliges x hw
    rw [Terminal.applied_eq] at hactions
    unfold scenesOfAll
    rw [hcomplete, List.map_append, hactions, ih hsafe, List.flatMap_cons]

end Run

/-- **Dialogs on a terminal keep step with the input.** Runs in a row end well, and the actions of
each are applied through the first one that reloads the surface. The dialogs of all the runs take
the lines of the input in order, one each: a message changes nothing, a question puts out its line
without the blanks around it, and a dialog for which no line is left changes nothing. No other
action takes any input, and one that is to close the terminal puts out that this has failed. -/
theorem Terminal.dialogs_keep_step {w : World Terminal} (hw : w.IsSafe fun _ => True)
    (workflows : List (Option Workflow)) :
    let scenes := Run.scenesOfAll host workflows w
    (workflows.forM (Run.complete host)).exec w = (.ok ⟨⟩, Run.worldAfter host workflows w) ∧
      (∀ before x behind, workflows = before ++ x :: behind → ∃ steps,
        Run.reportsOf host x (Run.worldAfter host before w) =
          steps ++ [(.done, Run.worldAfter host (before ++ [x]) w)]) ∧
      scenes.map Scene.action =
        workflows.flatMap (fun x => Action.throughReload (Run.ofWorkflow x).remaining) ∧
      (∀ j s, (scenes.filter Scene.isDialog)[j]? = some s →
        s.before.host.lines = w.host.lines.drop j ∧
          s.after.host.lines = w.host.lines.drop (j + 1) ∧ s.Meets w.host.lines[j]?) ∧
      (Run.worldAfter host workflows w).host.lines =
        w.host.lines.drop (scenes.filter Scene.isDialog).length ∧
      (∀ s ∈ scenes, s.isDialog = false → s.after.host.input = s.before.host.input) ∧
      ∀ s ∈ scenes, s.action.kind = .closeWindow → s.after.surface = { s.before.surface with
        output := s.before.surface.output ++ [("Failed to close window" : Text)] } := by
  intro scenes
  obtain ⟨hruns, -, hthrough⟩ := Run.goesThrough_all obliges workflows hw
  have hplayed := hthrough.isPlayed
  obtain ⟨hlines, hend⟩ := lines_of_goesThrough hthrough
  refine ⟨hruns, ?_, Run.actions_scenesOfAll hw workflows, fun j s hs => ?_, hend,
    fun s hs => (hplayed s hs).input, fun s hs => (hplayed s hs).surface_of_close⟩
  · rintro before x behind -
    obtain ⟨-, hsafe, -⟩ := Run.goesThrough_all obliges before hw
    obtain ⟨w', hcomplete, -, ⟨steps, hreports⟩, -⟩ := Run.goesThrough_complete obliges x hsafe
    have hnext : Run.worldAfter host (before ++ [x]) w = w' := by
      rw [Run.worldAfter, List.foldl_append]
      exact congrArg Prod.snd hcomplete
    exact ⟨steps, hnext ▸ hreports⟩
  · have hmem := List.mem_filter.mp (List.mem_of_getElem? hs)
    have hbefore := hlines j s hs
    have hmeets := (hplayed s hmem.1).meets hmem.2
    have hafter := (hplayed s hmem.1).lines hmem.2
    rw [hbefore, List.head?_drop] at hmeets
    rw [hbefore, List.tail_drop] at hafter
    exact ⟨hbefore, hafter, hmeets⟩

/-- Two runs on a terminal with two lines of input: the message takes the first one, the question of
the first run the second one, which is empty, and that of the second run is not answered. -/
theorem Terminal.dialogs_keep_step_of_two_lines :
    let x : Workflow := ⟨"Go", [⟨"a1", .alert, none⟩, ⟨"a2", .promptAndShow, none⟩,
      ⟨"a3", .closeWindow, none⟩]⟩
    let y : Workflow := ⟨"Go", [⟨"b1", .promptAndShow, none⟩, ⟨"b2", .refreshPage, none⟩,
      ⟨"b3", .alert, none⟩]⟩
    let w : World Terminal := {
      surface := .fresh, shelf := ⟨.memory [], ⟨[], [], []⟩⟩, host := { input := "ok\n \n" }
      sequencer := .paced 0 }
    let scenes := Run.scenesOfAll host [some x, some y] w
    w.IsSafe (fun _ => True) ∧ scenes.map (·.action.id) = ["a1", "a2", "a3", "b1", "b2"] ∧
      scenes.map (·.after.surface.output) = ([[], ["You entered: "],
        ["You entered: ", "Failed to close window"], [], []] : List (List Text)) ∧
      ∀ (j : Nat) (s : Scene Terminal), (scenes.filter Scene.isDialog)[j]? = some s →
        s.Meets [("ok" : Text), " "][j]? := by
  intro x y w scenes
  have hshallow : w.shelf.IsShallow := Shelf.isShallow_of_entries fun z hz => by cases hz
  have hsafe : w.IsSafe fun _ => True := ⟨nofun, trivial, hshallow⟩
  obtain ⟨-, -, hactions, hdialogs, -⟩ := dialogs_keep_step hsafe [some x, some y]
  have hlines : w.host.lines = [("ok" : Text), " "] := by decide +kernel
  refine ⟨hsafe, ?_, by decide +kernel, fun j s hs => hlines ▸ (hdialogs j s hs).2.2⟩
  have hids := congrArg (List.map Action.id) hactions
  rw [List.map_map] at hids
  exact hids

/-- Not every storage lets the dialogs keep step: where the file holds 961 opening brackets, a run
that looks a text up in front of a question fails. -/
theorem Terminal.not_always_in_step :
    ¬ ∀ (workflows : List (Option Workflow)) (w : World Terminal), w.IsCalm →
      ∃ w', (workflows.forM (Run.complete host)).exec w = (.ok ⟨⟩, w') := by
  intro hall
  let x : Workflow := ⟨"Go", [⟨"a1", .getLocalStorage, some [("key", "name")]⟩,
    ⟨"a2", .promptAndShow, none⟩]⟩
  let w : World Terminal := {
    surface := .fresh, host := { input := "Ada\n" }, sequencer := .paced 0
    shelf := ⟨.file ⟨false, ["store.json"]⟩,
      ⟨[], [(["store.json"], .file (List.replicate 961 91))], []⟩⟩ }
  obtain ⟨w', hruns⟩ := hall [some x] w nofun
  have hfails : (([some x].forM (Run.complete host)).exec w).1.isOk = false := by decide +kernel
  rw [hruns] at hfails
  cases hfails

end PushButton
