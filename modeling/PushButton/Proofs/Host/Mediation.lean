import PushButton.Proofs.Host.Forgetting
import PushButton.Proofs.Run.Overlap

/-!
# Browsers that mediate dialogs

A page that shows dialogs passes every message and every question on to the host that answers them,
and passes the answer back. On its way a refusal turns into a dialog that is dismissed, and a
message that is acknowledged into one that is accepted; what an action makes of these is the same.
So a run that neither reloads nor closes the surface goes on through the browser as it does with
the answering host alone.
-/

namespace PushButton

variable {ρ : Type}

/-! ## Dialogs -/

/-- A request that is met by a dialog. -/
def Request.isDialog : Request → Bool
  | .alert _ | .prompt _ => true
  | .reload | .close => false

/-- An action that neither reloads nor closes the surface. -/
def Action.KeepsSurface (a : Action) : Prop := a.kind ≠ .refreshPage ∧ a.kind ≠ .closeWindow

/-- A host that answers dialogs in the states of some kind: it meets every message and every
question or refuses it, and it stays in such states. -/
structure Host.AnswersDialogs (h : Host ρ) (Q : ρ → Prop) : Prop where
  /-- It stays in such states when it is asked. -/
  ask {r : Request} {s : ρ} : r.isDialog = true → Q s → Q (h.ask r s).2.1
  /-- When it is asked, it refuses at most. -/
  refuses {r : Request} {s : ρ} {f : Failure} : r.isDialog = true → Q s →
    (h.ask r s).1 = some (.failed f) → f.kind = .refused
  /-- It stays in such states when it settles a request. -/
  settle {r : Request} {s : ρ} : r.isDialog = true → Q s → Q (h.settle r s).2.1
  /-- When it settles a request, it refuses at most. -/
  refusesLater {r : Request} {s : ρ} {f : Failure} : r.isDialog = true → Q s →
    (h.settle r s).1 = .failed f → f.kind = .refused
  /-- It stays in such states when a request is given up. -/
  abandon {r : Request} {s : ρ} : r.isDialog = true → Q s → Q (h.abandon r s).1

/-- A browser with a page that shows dialogs: a program that raises one is evaluated, and the dialog
can be accepted and dismissed. -/
structure Browser.ShowsDialogs (b : Browser ρ) : Prop where
  /-- There is a page. -/
  page : b.hasPage = true
  /-- The programs that raise dialogs are evaluated. -/
  raises (n : Nat) {r : Request} {script : Script} {kind : DialogKind} :
    scriptOf r = some (script, kind) → b.faults n (.evaluate script) = none
  /-- Dialogs are accepted. -/
  accepts (n : Nat) (answer : Option Text) : b.faults n (.accept answer) = none
  /-- Dialogs are dismissed. -/
  dismisses (n : Nat) : b.faults n .dismiss = none

/-- The reply that is left of the reply of the answering host behind a dialog: a question is
answered, or the dialog is dismissed; a message is acknowledged. -/
def Reply.behind : DialogKind → Reply → Reply
  | .prompt, .answer (some t) => .answer (some t)
  | .prompt, _ => .answer none
  | _, _ => .done

/-- A reply that refuses at most. -/
def Reply.RefusesAtMost (reply : Reply) : Prop := ∀ f, reply = .failed f → f.kind = .refused

/-- A page shows dialogs however many calls there were, and whatever state the answering host is in.
-/
theorem Browser.ShowsDialogs.later {b : Browser ρ} (hb : b.ShowsDialogs) (s : ρ) (n : Nat) :
    Browser.ShowsDialogs { b with responder := s, calls := n } :=
  ⟨hb.page, hb.raises, hb.accepts, hb.dismisses⟩

namespace BrowserAct

variable {α β : Type} {b : Browser ρ} {h : Host ρ}

/-- Behind an activity that succeeds, the next one is carried out. -/
theorem exec_bind_ok {act : BrowserAct ρ α} {next : α → BrowserAct ρ β}
    {x y : Browser ρ × List Occurrence} {a : α} (hact : exec act x = (.ok a, y)) :
    exec (act >>= next) x = exec (next a) y := by
  rw [exec_bind, hact]

/-- A dialog is settled by a call that does not fail. -/
theorem exec_settleBy {c : PageCall} (hc : b.faults b.calls c = none) (past : List Occurrence) :
    exec (Browser.settleBy c) (b, past) =
      (.ok (), { b with calls := b.calls + 1 }, past ++ [.called c]) := by
  unfold Browser.settleBy
  rw [exec_tryCatch, exec_call, hc]
  rfl

/-- A refusal is recorded, and its dialog is dismissed. -/
theorem exists_exec_settleFailed (b : Browser ρ) {f : Failure} (hf : f.kind = .refused)
    (past : List Occurrence) :
    ∃ os, (∀ o ∈ os, o.isAside = true) ∧ exec (Browser.settleFailed f) (b, past) =
      (.ok (), { b with calls := b.calls + 1 }, past ++ os) := by
  let record : Record :=
    { level := .warning
      logger := Browser.logger
      message := "Dialog could not be answered, dismissing: " ++ f.message }
  have hlog : exec (Browser.log .warning
      ("Dialog could not be answered, dismissing: " ++ f.message)) (b, past) =
        (.ok (), b, past ++ [.logged record]) := rfl
  obtain ⟨os, hos, hdismiss⟩ := exists_exec_dismissRest (b, past ++ [.logged record])
  refine ⟨.logged record :: os, ?_, ?_⟩
  · intro o ho
    obtain rfl | ho := List.mem_cons.mp ho
    · rfl
    · exact hos o ho
  · unfold Browser.settleFailed
    rw [if_pos hf, exec_bind_ok hlog, hdismiss, List.append_assoc]
    rfl

/-- A dialog that is shown is settled, with the reply that is left behind it. -/
theorem exists_exec_settleDialog (hb : b.ShowsDialogs) (kind : DialogKind) {reply : Reply}
    (hreply : reply.RefusesAtMost) (past : List Occurrence) :
    ∃ answer os, (∀ o ∈ os, o.isAside = true) ∧
      exec (Browser.settleDialog kind reply) (b, past) =
        (.ok answer, { b with calls := b.calls + 1 }, past ++ os) ∧
      Browser.replyOf kind answer = reply.behind kind := by
  have hsettled {c : PageCall} (answer : Option Text) (hc : b.faults b.calls c = none) :
      exec (do Browser.settleBy c; pure answer) (b, past) =
        (.ok answer, { b with calls := b.calls + 1 }, past ++ [.called c]) := by
    exact exec_bind_ok (exec_settleBy hc past)
  have haside (c : PageCall) : ∀ o ∈ [Occurrence.called c], o.isAside = true := by
    simp [Occurrence.isAside]
  have haccepted (answer : Option Text) := hsettled none (hb.accepts b.calls answer)
  have hdismissed := hsettled none (hb.dismisses b.calls)
  cases reply with
  | failed f =>
    obtain ⟨os, hos, hexec⟩ := exists_exec_settleFailed b (hreply f rfl) past
    refine ⟨none, os, hos, ?_, by cases kind <;> rfl⟩
    have hsplit : (Browser.settleDialog kind (.failed f) : BrowserAct ρ (Option Text)) =
        (do Browser.settleFailed f; pure none) := by cases kind <;> rfl
    rw [hsplit]
    exact exec_bind_ok hexec
  | done =>
    cases kind with
    | prompt => exact ⟨none, _, haside _, hdismissed, rfl⟩
    | alert | other => exact ⟨none, _, haside _, haccepted none, rfl⟩
  | answer t =>
    cases kind with
    | prompt =>
      cases t with
      | none => exact ⟨none, _, haside _, hdismissed, rfl⟩
      | some t => exact ⟨some t, _, haside _, hsettled _ (hb.accepts _ _), rfl⟩
    | alert | other =>
      cases t with
      | none | some t => exact ⟨none, _, haside _, haccepted none, rfl⟩

/-- Behind the reply of the answering host, its dialog is settled. -/
theorem exists_exec_pass (hb : b.ShowsDialogs) (kind : DialogKind) {reply : Option Reply}
    (hreply : ∀ now, reply = some now → now.RefusesAtMost) (past : List Occurrence) :
    ∃ n os, (∀ o ∈ os, o.isAside = true) ∧
      exec (reply.elim (pure none) fun reply => do
        pure (some (Browser.replyOf kind (← Browser.settleDialog kind reply)))) (b, past) =
          (.ok (reply.map (·.behind kind)), { b with calls := n }, past ++ os) := by
  cases reply with
  | none =>
    refine ⟨b.calls, [], fun _ ho => absurd ho List.not_mem_nil, ?_⟩
    rw [List.append_nil]
    rfl
  | some reply =>
    obtain ⟨answer, os, hos, hexec, hleft⟩ :=
      exists_exec_settleDialog hb kind (hreply reply rfl) past
    refine ⟨b.calls + 1, os, hos, ?_⟩
    rw [Option.elim_some, exec_bind_ok hexec, hleft]
    rfl

/-- A browser that is asked for a dialog asks the answering host and passes its reply on. -/
theorem exists_exec_take (hb : b.ShowsDialogs) {r : Request} {script : Script} {kind : DialogKind}
    (hr : Browser.scriptOf r = some (script, kind))
    (hreply : ∀ now, (h.ask r b.responder).1 = some now → now.RefusesAtMost) :
    ∃ n os, (∀ o ∈ os, o.isAside = true) ∧ exec (Browser.take h r) (b, []) =
      (.ok ((h.ask r b.responder).1.map (·.behind kind)),
        { b with responder := (h.ask r b.responder).2.1, calls := n },
        .called (.evaluate script) :: (h.ask r b.responder).2.2 ++ os) := by
  have htake : Browser.take h r = (do
      Browser.requirePage
      Browser.call (.evaluate script)
      (← Browser.delegate (h.ask r)).elim (pure none) fun reply => do
        pure (some (Browser.replyOf kind (← Browser.settleDialog kind reply)))) := by
    cases r with
    | alert | prompt =>
      cases hr
      refine bind_congr fun _ => bind_congr fun _ => bind_congr fun reply => ?_
      cases reply with
      | none => rfl
      | some reply => rfl
    | reload | close => cases hr
  have hpage : exec Browser.requirePage (b, []) = (.ok (), b, []) := by
    have hstate : exec Browser.state (b, []) = (.ok b, b, []) := rfl
    unfold Browser.requirePage
    rw [exec_bind_ok hstate, hb.page]
    rfl
  have hcall : exec (Browser.call (.evaluate script)) (b, []) =
      (.ok (), { b with calls := b.calls + 1 }, [.called (.evaluate script)]) := by
    rw [exec_call, hb.raises _ hr]
    rfl
  let b₁ : Browser ρ := { b with responder := (h.ask r b.responder).2.1, calls := b.calls + 1 }
  let past : List Occurrence := .called (.evaluate script) :: (h.ask r b.responder).2.2
  have hasked : exec (Browser.delegate (h.ask r))
      ({ b with calls := b.calls + 1 }, [.called (.evaluate script)]) =
        (.ok (h.ask r b.responder).1, b₁, past) := rfl
  obtain ⟨n, os, hos, hexec⟩ := exists_exec_pass (hb.later _ _ : b₁.ShowsDialogs) kind hreply past
  refine ⟨n, os, hos, ?_⟩
  rw [htake, exec_bind_ok hpage, exec_bind_ok hcall, exec_bind_ok hasked, hexec]

/-- A browser that settles the request for a dialog passes the reply of the answering host on. -/
theorem exists_exec_settle (hb : b.ShowsDialogs) {r : Request} {script : Script}
    {kind : DialogKind} (hr : Browser.scriptOf r = some (script, kind))
    (hreply : (h.settle r b.responder).1.RefusesAtMost) :
    ∃ n os, (∀ o ∈ os, o.isAside = true) ∧ exec (Browser.settle h r) (b, []) =
      (.ok ((h.settle r b.responder).1.behind kind),
        { b with responder := (h.settle r b.responder).2.1, calls := n },
        (h.settle r b.responder).2.2 ++ os) := by
  let b₁ : Browser ρ := { b with responder := (h.settle r b.responder).2.1 }
  have hsettled : exec (Browser.delegate (h.settle r)) (b, []) =
      (.ok (h.settle r b.responder).1, b₁, (h.settle r b.responder).2.2) := rfl
  obtain ⟨answer, os, hos, hexec, hleft⟩ := exists_exec_settleDialog
    (hb.later _ _ : b₁.ShowsDialogs) kind hreply (h.settle r b.responder).2.2
  refine ⟨b.calls + 1, os, hos, ?_⟩
  unfold Browser.settle
  rw [hr]
  dsimp only
  rw [exec_bind_ok hsettled, exec_bind_ok hexec, hleft]
  rfl

end BrowserAct

/-! ## Worlds with and without the browser -/

/-- A world with a browser that shows dialogs is like one in which the answering host is asked
directly: nothing is different but the browser and what has happened beside the surface, at which no
observer looks. -/
structure World.Mediated (Q : ρ → Prop) (w : World (Browser ρ)) (v : World ρ) : Prop where
  /-- The surface is the same. -/
  surface : w.surface = v.surface
  /-- The observers are the same. -/
  listeners : w.listeners = v.listeners
  /-- The storage and the files are the same. -/
  shelf : w.shelf = v.shelf
  /-- The random numbers to come are the same. -/
  draws : w.draws = v.draws
  /-- As much time has passed. -/
  clock : w.clock = v.clock
  /-- As many run ids were given. -/
  runIds : w.runIds = v.runIds
  /-- The runs are the same. -/
  sequencer : w.sequencer = v.sequencer
  /-- The answering host is in the same state. -/
  responder : w.host.responder = v.host
  /-- It is one of the states in which the host answers dialogs. -/
  answers : Q v.host
  /-- The browser shows dialogs. -/
  shows : w.host.ShowsDialogs
  /-- The same has happened, records and calls to the page apart. -/
  past : w.past.filter (!·.isAside) = v.past.filter (!·.isAside)
  /-- No observer looks at records or at calls to the page. -/
  blind : ∀ l ∈ w.listeners, l.IgnoresAsides

section Worlds

variable {Q : ρ → Prop} {w : World (Browser ρ)} {v : World ρ}

namespace World.Mediated

/-- What happens in one world only is beside the surface. -/
theorem after_of (hw : w.Mediated Q v) {os os' : List Occurrence}
    (h : os.filter (!·.isAside) = os'.filter (!·.isAside)) :
    (w.after os).Mediated Q (v.after os') := by
  refine { hw with past := ?_ }
  change (os.reverse ++ w.past).filter _ = (os'.reverse ++ v.past).filter _
  rw [List.filter_append, List.filter_append, hw.past, List.filter_reverse, List.filter_reverse, h]

/-- The same happens in both worlds. -/
theorem after (hw : w.Mediated Q v) (os : List Occurrence) :
    (w.after os).Mediated Q (v.after os) := hw.after_of rfl

/-- The answering host gets into another state, and the same happens to the surface. -/
theorem with_host (hw : w.Mediated Q v) {b : Browser ρ} {s : ρ} (n : Nat)
    (hb : b = { w.host with responder := s, calls := n }) (hs : Q s) {os os' : List Occurrence}
    (h : os.filter (!·.isAside) = os'.filter (!·.isAside)) :
    ({ w with host := b }.after os).Mediated Q ({ v with host := s }.after os') := by
  subst hb
  have hhost : World.Mediated Q { w with host := { w.host with responder := s, calls := n } }
      { v with host := s } :=
    { hw with responder := rfl, answers := hs, shows := hw.shows.later s n }
  exact hhost.after_of h

end World.Mediated

/-- Worlds with and without the browser are like each other for all that actions look at. -/
instance : World.Concert (World.Mediated Q) where
  surface hw := hw.surface
  listeners hw := hw.listeners
  shelf hw := hw.shelf
  draws hw := hw.draws
  blind hw l hl field u u' hu := by
    rw [hw.blind l hl field u.surface, hw.blind l hl field u'.surface, hu.surface, hu.past]
  after os hw := hw.after os
  with_surface s hw := { hw with surface := rfl }
  with_listeners hls hw :=
    { hw with listeners := rfl, blind := fun l hl => hw.blind l (hls.subset hl) }
  with_shelf s hw := { hw with shelf := rfl }
  with_draws ns hw := { hw with draws := rfl }
  took _ since since' _ hw := hw.after_of (by simp [Occurrence.isAside])
  clock hw := hw.clock
  runIds hw := hw.runIds
  pacing hw := congrArg Sequencer.pacing hw.sequencer
  elapsed ms hw := { hw with clock := congrArg (· + ms) hw.clock }
  begun hw := { hw with
    runIds := congrArg (· + 1) hw.runIds
    sequencer := congrArg
      (fun s : Sequencer => { s with started := s.started + 1, active := s.active + 1 })
      hw.sequencer }
  reached i hw := { hw with
    sequencer := congrArg (fun s : Sequencer => { s with current := some i }) hw.sequencer }
  released hw := { hw with sequencer := congrArg Run.release hw.sequencer }

/-! ## Actions that are met alike -/

/-- What happens beside the surface is left out. -/
theorem Occurrence.filter_append_asides (os : List Occurrence) {os' : List Occurrence}
    (h : ∀ o ∈ os', o.isAside = true) :
    (os ++ os').filter (!·.isAside) = os.filter (!·.isAside) := by
  have hnone : os'.filter (!·.isAside) = [] :=
    List.filter_eq_nil_iff.mpr fun o ho => by simp [h o ho]
  rw [List.filter_append, hnone, List.append_nil]

namespace Action

variable {a : Action} {r : Request} {script : Script} {kind : DialogKind}

/-- The request of an action that keeps the surface raises a dialog. -/
theorem KeepsSurface.exists_script (ha : a.KeepsSurface) (hr : a.request? = some r) :
    r.isDialog = true ∧ ∃ script kind, Browser.scriptOf r = some (script, kind) := by
  unfold request? at hr
  cases hkind : a.kind with
  | alert | promptAndShow =>
    rw [hkind] at hr
    cases hr
    exact ⟨rfl, _, _, rfl⟩
  | refreshPage => exact (ha.1 hkind).elim
  | closeWindow => exact (ha.2 hkind).elim
  | showText | showImage | setLocalStorage | getLocalStorage | increaseButtonSize
  | changeButtonColor | disableButton =>
    rw [hkind] at hr
    cases hr

/-- A message is shown by an alert, and a question is asked by a prompt. -/
theorem kinds_of_script (hr : a.request? = some r)
    (hscript : Browser.scriptOf r = some (script, kind)) :
    a.kind = .alert ∧ kind = .alert ∨ a.kind = .promptAndShow ∧ kind = .prompt := by
  unfold request? at hr
  cases hkind : a.kind with
  | alert =>
    rw [hkind] at hr
    cases hr
    cases hscript
    exact .inl ⟨rfl, rfl⟩
  | promptAndShow =>
    rw [hkind] at hr
    cases hr
    cases hscript
    exact .inr ⟨rfl, rfl⟩
  | refreshPage | closeWindow =>
    rw [hkind] at hr
    cases hr
    cases hscript
  | showText | showImage | setLocalStorage | getLocalStorage | increaseButtonSize
  | changeButtonColor | disableButton =>
    rw [hkind] at hr
    cases hr

/-- Whatever a message or a question comes to, the reply that is left behind the dialog means what
the reply of the answering host means; only the record about a refusal is missing. -/
theorem agreesUpTo_conclude_behind (hr : a.request? = some r)
    (hscript : Browser.scriptOf r = some (script, kind)) {reply : Reply}
    (hreply : reply.RefusesAtMost) : Act.AgreesUpTo (World.Mediated Q)
      (conclude a (reply.behind kind)) (conclude a reply) := by
  have hrefused {f : Failure} (hf : f.kind = .refused) (wording : Text) :
      Act.AgreesUpTo (World.Mediated Q) (pure Effect.proceed)
        (do whenRefused f .warning wording; pure Effect.proceed) := by
    intro w v hw
    unfold whenRefused
    rw [if_pos hf, Act.exec_bind, Act.exec_log]
    let record : Record := ⟨.warning, logger, wording ++ f.message, [], none⟩
    have hrecord : ∀ o ∈ [Occurrence.logged record], o.isAside = true := by
      simp [Occurrence.isAside]
    have haside := Occurrence.filter_append_asides [] hrecord
    exact ⟨rfl, hw.after_of haside.symm⟩
  unfold conclude
  obtain ⟨ha, rfl⟩ | ⟨ha, rfl⟩ := kinds_of_script hr hscript
  · rw [ha]
    cases reply with
    | failed f => exact hrefused (hreply f rfl) _
    | done | answer t => exact Act.AgreesUpTo.pure _
  · rw [ha]
    cases reply with
    | failed f => exact hrefused (hreply f rfl) _
    | done => exact Act.AgreesUpTo.pure _
    | answer t =>
      cases t with
      | none => exact Act.AgreesUpTo.pure _
      | some t =>
        exact (World.Kinship.putLine _).bind fun _ => Act.AgreesUpTo.pure _

variable {h : Host ρ}

/-- A browser that shows dialogs meets the request of an action that keeps the surface as the
answering host does. -/
theorem KeepsSurface.isMetAlike (ha : a.KeepsSurface) (hanswers : h.AnswersDialogs Q) :
    a.IsMetAlike (Browser.host h) h (World.Mediated Q) where
  ask {w v r} hr hw := by
    obtain ⟨hdialog, script, kind, hscript⟩ := ha.exists_script hr
    have hresponder : w.host.responder = v.host := hw.responder
    have hrefuses : ∀ now, (h.ask r w.host.responder).1 = some now → now.RefusesAtMost := by
      rintro now hnow f rfl
      exact hanswers.refuses hdialog (hresponder ▸ hw.answers) hnow
    obtain ⟨n, os, hos, htake⟩ := BrowserAct.exists_exec_take hw.shows hscript hrefuses
    rw [Browser.ask_eq, htake]
    rw [hresponder] at hrefuses ⊢
    constructor
    · dsimp only
      cases hnow : (h.ask r v.host).1 with
      | none => exact .none
      | some now => exact .some (agreesUpTo_conclude_behind hr hscript (hrefuses now hnow))
    · exact hw.with_host n rfl (hanswers.ask hdialog hw.answers)
        ((List.filter_cons_of_neg (by simp [Occurrence.isAside])).trans
          (Occurrence.filter_append_asides _ hos))
  settle {w v r} hr hw := by
    obtain ⟨hdialog, script, kind, hscript⟩ := ha.exists_script hr
    have hresponder : w.host.responder = v.host := hw.responder
    have hrefuses : (h.settle r w.host.responder).1.RefusesAtMost := fun f hf =>
      hanswers.refusesLater hdialog (hresponder ▸ hw.answers) hf
    obtain ⟨n, os, hos, hsettle⟩ := BrowserAct.exists_exec_settle hw.shows hscript hrefuses
    rw [Browser.settle_eq, hsettle]
    rw [hresponder] at hrefuses ⊢
    refine ⟨agreesUpTo_conclude_behind hr hscript hrefuses, ?_⟩
    exact hw.with_host n rfl (hanswers.settle hdialog hw.answers)
      (Occurrence.filter_append_asides _ hos)

end Action

end Worlds

end PushButton
