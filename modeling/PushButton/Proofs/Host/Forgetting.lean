import PushButton.Cli.Console
import PushButton.Host.Browser
import PushButton.Host.Scripted
import PushButton.Host.Terminal
import PushButton.Proofs.Run.Unison

/-!
# Hosts that forget

The terminal and a host that follows a script do nothing when a request is given up. A browser
dismisses the dialog that waits. As long as it does not depend on the number of calls which of them
fail, that makes no difference to it either, if it makes none to the host that answers its dialogs.
-/

namespace PushButton

variable {σ ρ α β : Type}

/-- A host that stays as it is when a request is given up. -/
theorem Host.forgets_of_same {h : Host σ} (habandon : ∀ r s, h.abandon r s = (s, [])) :
    h.Forgets Eq where
  ask r hs := by
    subst hs
    exact ⟨rfl, rfl, rfl⟩
  settle r hs := by
    subst hs
    exact ⟨rfl, rfl, rfl⟩
  abandon r hs := by
    subst hs
    exact ⟨rfl, rfl⟩
  forgets {s} r _ := by rw [habandon r s]
  aside r s := by
    rw [habandon r s]
    nofun

instance : HostScript.host.Forgets Eq := Host.forgets_of_same fun _ _ => rfl

instance : Terminal.host.Forgets Eq := Host.forgets_of_same fun _ _ => rfl

/-- A host forgets what is given up also when it prints on a console. -/
instance {h : Host σ} {E : σ → σ → Prop} [h.Forgets E] : h.onConsole.Forgets E where
  ask {s s'} r hs := by
    obtain ⟨hreply, hos, hstates⟩ := Host.Forgets.ask (h := h) r hs
    unfold Host.onConsole
    dsimp only
    generalize h.ask r s = out at hreply hos hstates
    generalize h.ask r s' = out' at hreply hos hstates
    obtain ⟨reply, u, os⟩ := out
    obtain ⟨reply', u', os'⟩ := out'
    obtain rfl : reply = reply' := hreply
    obtain rfl : os = os' := hos
    cases reply with
    | none => exact ⟨rfl, rfl, hstates⟩
    | some reply =>
      unfold Host.replyOnConsole
      dsimp only
      cases os.findSome? Occurrence.unprintable? with
      | none => exact ⟨rfl, rfl, hstates⟩
      | some f => exact ⟨rfl, rfl, hs⟩
  settle {s s'} r hs := by
    obtain ⟨hreply, hos, hstates⟩ := Host.Forgets.settle (h := h) r hs
    unfold Host.onConsole Host.replyOnConsole
    dsimp only
    rw [← hos]
    cases (h.settle r s).2.2.findSome? Occurrence.unprintable? with
    | none => exact ⟨hreply, hos, hstates⟩
    | some f => exact ⟨rfl, rfl, hs⟩
  abandon r hs := Host.Forgets.abandon (h := h) r hs
  forgets r hs := Host.Forgets.forgets (h := h) r hs
  aside r s := Host.Forgets.aside (h := h) (E := E) r s

/-! ## Browsers -/

/-- Browsers that are the same but for the number of calls, on which it does not depend which calls
fail. The hosts that answer their dialogs are in states that are alike. -/
structure Browser.Like (E : ρ → ρ → Prop) (b b' : Browser ρ) : Prop where
  /-- The browsers are the same. -/
  rest : { b' with calls := b.calls, responder := b.responder } = b
  /-- The hosts that answer the dialogs are alike. -/
  responder : E b.responder b'.responder
  /-- A call fails or does not, however many there were before. -/
  steady : ∀ m n c, b.faults m c = b.faults n c

namespace BrowserAct

/-- An activity in a state of the browser, behind what has happened. -/
def exec (act : BrowserAct ρ α) (x : Browser ρ × List Occurrence) :
    Except Failure α × Browser ρ × List Occurrence := act.run.run x

/-- Two activities are carried out one after the other, unless the first one fails. -/
theorem exec_bind (act : BrowserAct ρ α) (next : α → BrowserAct ρ β)
    (x : Browser ρ × List Occurrence) :
    exec (act >>= next) x =
      match exec act x with
      | (.ok a, y) => exec (next a) y
      | (.error f, y) => (.error f, y) := by
  unfold exec
  rw [ExceptT.run_bind, StateT.run_bind]
  obtain ⟨res, y⟩ := StateT.run (ExceptT.run act) x
  cases res with
  | ok a => rfl
  | error f => rfl

/-- A failure is caught. -/
theorem exec_tryCatch (act : BrowserAct ρ α) (handle : Failure → BrowserAct ρ α)
    (x : Browser ρ × List Occurrence) :
    exec (tryCatch act handle) x =
      match exec act x with
      | (.ok a, y) => (.ok a, y)
      | (.error f, y) => exec (handle f) y := by
  unfold exec
  rw [ExceptT.run_tryCatch, StateT.run_bind]
  obtain ⟨res, y⟩ := StateT.run (ExceptT.run act) x
  cases res with
  | ok a => rfl
  | error f => rfl

/-- Two activities agree in browsers that are alike: they have the same result, the same happens,
and the browsers stay alike. -/
def AgreesAt (E : ρ → ρ → Prop) (act act' : BrowserAct ρ α) (b b' : Browser ρ)
    (os : List Occurrence) : Prop :=
  (exec act (b, os)).1 = (exec act' (b', os)).1 ∧
    (exec act (b, os)).2.1.Like E (exec act' (b', os)).2.1 ∧
    (exec act (b, os)).2.2 = (exec act' (b', os)).2.2

/-- An activity does the same in browsers that are alike. -/
def Agrees (E : ρ → ρ → Prop) (act : BrowserAct ρ α) : Prop :=
  ∀ b b' os, b.Like E b' → AgreesAt E act act b b' os

variable {E : ρ → ρ → Prop}

/-- A value. -/
theorem Agrees.pure (x : α) : Agrees E (pure x) := fun _ _ _ hb => ⟨rfl, hb, rfl⟩

/-- A failure. -/
theorem Agrees.throw (f : Failure) : Agrees E (throw f : BrowserAct ρ α) :=
  fun _ _ _ hb => ⟨rfl, hb, rfl⟩

/-- One activity after the other. -/
theorem Agrees.bind {act : BrowserAct ρ α} {next : α → BrowserAct ρ β} (hact : Agrees E act)
    (hnext : ∀ a, Agrees E (next a)) : Agrees E (act >>= next) := by
  intro b b' os hb
  obtain ⟨hresult, hbrowsers, hos⟩ := hact b b' os hb
  unfold AgreesAt
  rw [exec_bind, exec_bind]
  generalize exec act (b, os) = out at hresult hbrowsers hos
  generalize exec act (b', os) = out' at hresult hbrowsers hos
  obtain ⟨res, c, os₁⟩ := out
  obtain ⟨res', c', os₁'⟩ := out'
  obtain rfl : res = res' := hresult
  obtain rfl : os₁ = os₁' := hos
  cases res with
  | ok a => exact hnext a c c' os₁ hbrowsers
  | error f => exact ⟨rfl, hbrowsers, rfl⟩

/-- A failure is caught. -/
theorem Agrees.tryCatch {act : BrowserAct ρ α} {handle : Failure → BrowserAct ρ α}
    (hact : Agrees E act) (hhandle : ∀ f, Agrees E (handle f)) :
    Agrees E (tryCatch act handle) := by
  intro b b' os hb
  obtain ⟨hresult, hbrowsers, hos⟩ := hact b b' os hb
  unfold AgreesAt
  rw [exec_tryCatch, exec_tryCatch]
  generalize exec act (b, os) = out at hresult hbrowsers hos
  generalize exec act (b', os) = out' at hresult hbrowsers hos
  obtain ⟨res, c, os₁⟩ := out
  obtain ⟨res', c', os₁'⟩ := out'
  obtain rfl : res = res' := hresult
  obtain rfl : os₁ = os₁' := hos
  cases res with
  | ok a => exact ⟨rfl, hbrowsers, rfl⟩
  | error f => exact hhandle f c c' os₁ hbrowsers

/-- The browser is looked at, and then goes on in the same way. -/
theorem Agrees.state_bind {next : Browser ρ → BrowserAct ρ α}
    (hnext : ∀ b b' os, b.Like E b' → AgreesAt E (next b) (next b') b b' os) :
    Agrees E (Browser.state >>= next) := hnext

/-- Something happens. -/
theorem agrees_occur (o : Occurrence) : Agrees E (Browser.occur o) := fun _ _ _ hb => ⟨rfl, hb, rfl⟩

/-- A call is made. -/
theorem agrees_call (c : PageCall) : Agrees E (Browser.call c) := by
  refine Agrees.state_bind fun b b' os hb => ?_
  have hfaults : b'.faults = b.faults := by rw [← hb.rest]
  rw [hfaults, hb.steady b'.calls b.calls c]
  refine Agrees.bind (agrees_occur _) (fun _ => Agrees.bind ?_ fun _ => ?_) b b' os hb
  · intro b b' os hb
    refine ⟨rfl, ⟨?_, hb.responder, hb.steady⟩, rfl⟩
    exact congrArg (fun b : Browser ρ => { b with calls := b.calls + 1 }) hb.rest
  · cases b.faults b.calls c with
    | none => exact Agrees.pure _
    | some message => exact Agrees.throw _

/-- The other host does something that is the same in states that are alike. -/
theorem agrees_delegate {f : ρ → α × ρ × List Occurrence}
    (hf : ∀ s s', E s s' → (f s).1 = (f s').1 ∧ (f s).2.2 = (f s').2.2 ∧ E (f s).2.1 (f s').2.1) :
    Agrees E (Browser.delegate f) := by
  intro b b' os hb
  obtain ⟨ha, hos, hs⟩ := hf b.responder b'.responder hb.responder
  refine ⟨congrArg Except.ok ha, ⟨?_, hs, hb.steady⟩, congrArg (os ++ ·) hos⟩
  exact congrArg (fun c : Browser ρ => { c with responder := (f b.responder).2.1 }) hb.rest

/-- A dialog that was not settled is dismissed. -/
theorem agrees_dismissRest : Agrees E (Browser.dismissRest : BrowserAct ρ Unit) :=
  (agrees_call _).tryCatch fun _ => agrees_occur _

/-- A dialog is settled according to a reply. -/
theorem agrees_settleDialog (kind : DialogKind) (reply : Reply) :
    Agrees E (Browser.settleDialog kind reply : BrowserAct ρ (Option Text)) := by
  have hsettleBy (c : PageCall) : Agrees E (Browser.settleBy c : BrowserAct ρ Unit) :=
    (agrees_call c).tryCatch fun f => agrees_dismissRest.bind fun _ => Agrees.throw f
  have hfailed (f : Failure) : Agrees E (Browser.settleFailed f : BrowserAct ρ Unit) := by
    unfold Browser.settleFailed
    split
    · exact (agrees_occur _).bind fun _ => agrees_dismissRest
    · exact agrees_dismissRest.bind fun _ => Agrees.throw f
  unfold Browser.settleDialog
  split
  · exact (hfailed _).bind fun _ => Agrees.pure _
  · exact (hsettleBy _).bind fun _ => Agrees.pure _
  · exact (hsettleBy _).bind fun _ => Agrees.pure _
  · exact (hsettleBy _).bind fun _ => Agrees.pure _

/-- There has to be a page. -/
theorem agrees_requirePage : Agrees E (Browser.requirePage : BrowserAct ρ Unit) := by
  refine Agrees.state_bind fun b b' os hb => ?_
  have hpage : b'.hasPage = b.hasPage := by rw [← hb.rest]
  rw [hpage]
  split
  · exact Agrees.throw _ b b' os hb
  · exact Agrees.pure _ b b' os hb

variable {h : Host ρ} [h.Forgets E]

/-- A request is taken. -/
theorem agrees_take (r : Request) : Agrees E (Browser.take h r) := by
  refine agrees_requirePage.bind fun _ => ?_
  split
  · refine (agrees_call _).bind fun _ => ?_
    refine (agrees_delegate fun s s' hs => Host.Forgets.ask (h := h) _ hs).bind fun reply => ?_
    cases reply with
    | none => exact Agrees.pure _
    | some reply => exact (agrees_settleDialog _ _).bind fun _ => Agrees.pure _
  · exact (agrees_call _).bind fun _ => Agrees.pure _
  · exact (agrees_call _).bind fun _ => Agrees.pure _

/-- A request that waits is settled. -/
theorem agrees_settle (r : Request) : Agrees E (Browser.settle h r) := by
  unfold Browser.settle
  split
  · refine (agrees_delegate fun s s' hs => Host.Forgets.settle (h := h) r hs).bind fun reply => ?_
    exact (agrees_settleDialog _ _).bind fun _ => Agrees.pure _
  · exact Agrees.pure _

/-- A request that waits is given up. -/
theorem agrees_abandon (r : Request) : Agrees E (Browser.abandon h r) := by
  refine Agrees.bind (agrees_delegate fun s s' hs => ?_) fun _ => agrees_dismissRest
  obtain ⟨hos, hs'⟩ := Host.Forgets.abandon (h := h) r hs
  exact ⟨rfl, hos, hs'⟩

/-- A call counts, whether or not it fails. -/
theorem exec_call (c : PageCall) (b : Browser ρ) (past : List Occurrence) :
    exec (Browser.call c) (b, past) =
      ((b.faults b.calls c).elim (.ok ()) fun message => .error ⟨.page, message⟩,
        { b with calls := b.calls + 1 }, past ++ [.called c]) := by
  have hstate : exec Browser.state (b, past) = (.ok b, b, past) := rfl
  have hoccur : exec (Browser.occur (.called c)) (b, past) =
      (.ok (), b, past ++ [.called c]) := rfl
  unfold Browser.call
  rw [exec_bind, hstate]
  dsimp only
  rw [exec_bind, hoccur]
  cases b.faults b.calls c with
  | none => rfl
  | some message => rfl

/-- A dialog that is dismissed counts as one call, whether or not that fails. -/
theorem exists_exec_dismissRest (x : Browser ρ × List Occurrence) :
    ∃ os, (∀ o ∈ os, o.isAside = true) ∧ exec Browser.dismissRest x =
      (.ok (), { x.1 with calls := x.1.calls + 1 }, x.2 ++ os) := by
  obtain ⟨b, past⟩ := x
  unfold Browser.dismissRest
  rw [exec_tryCatch, exec_call]
  cases b.faults b.calls .dismiss with
  | none => exact ⟨[.called .dismiss], by simp [Occurrence.isAside], rfl⟩
  | some message =>
    let record : Record :=
      { level := .debug, logger := Browser.logger, message := "dialog already closed: " ++ message }
    refine ⟨[.called .dismiss, .logged record], by simp [Occurrence.isAside], ?_⟩
    change (_, _, past ++ [.called .dismiss] ++ [.logged record]) = _
    rw [List.append_assoc]
    rfl

/-- What a browser does when a request is given up. -/
theorem exists_exec_abandon (h : Host ρ) (r : Request) (b : Browser ρ) :
    ∃ os, (∀ o ∈ os, o.isAside = true) ∧ exec (Browser.abandon h r) (b, []) =
      (.ok (), { b with responder := (h.abandon r b.responder).1, calls := b.calls + 1 },
        (h.abandon r b.responder).2 ++ os) :=
  exists_exec_dismissRest ({ b with responder := (h.abandon r b.responder).1 },
    (h.abandon r b.responder).2)

end BrowserAct

/-- A browser replies to a request by the result of an activity. -/
theorem Browser.ask_eq (h : Host ρ) (r : Request) (b : Browser ρ) :
    (Browser.host h).ask r b =
      (match (BrowserAct.exec (Browser.take h r) (b, [])).1 with
        | .ok reply => reply
        | .error f => some (Browser.failedReply r f),
      (BrowserAct.exec (Browser.take h r) (b, [])).2) := by
  unfold Browser.host Browser.perform BrowserAct.exec
  dsimp only
  generalize StateT.run (ExceptT.run (Browser.take h r)) (b, []) = out
  obtain ⟨res, c, os⟩ := out
  cases res with
  | ok reply => rfl
  | error f => rfl

/-- A browser settles a request by the result of an activity. -/
theorem Browser.settle_eq (h : Host ρ) (r : Request) (b : Browser ρ) :
    (Browser.host h).settle r b =
      (match (BrowserAct.exec (Browser.settle h r) (b, [])).1 with
        | .ok reply => reply
        | .error f => Browser.failedReply r f,
      (BrowserAct.exec (Browser.settle h r) (b, [])).2) := by
  unfold Browser.host Browser.perform BrowserAct.exec
  dsimp only
  generalize StateT.run (ExceptT.run (Browser.settle h r)) (b, []) = out
  obtain ⟨res, c, os⟩ := out
  cases res with
  | ok reply => rfl
  | error f => rfl

/-- A browser forgets what is given up, where it does not depend on the number of calls which of
them fail and the host that answers its dialogs forgets it too. -/
instance {h : Host ρ} {E : ρ → ρ → Prop} [h.Forgets E] :
    (Browser.host h).Forgets (Browser.Like E) where
  ask {b b'} r hb := by
    obtain ⟨hresult, hbrowsers, hos⟩ := BrowserAct.agrees_take (h := h) r b b' [] hb
    rw [Browser.ask_eq, Browser.ask_eq, hresult]
    exact ⟨rfl, hos, hbrowsers⟩
  settle {b b'} r hb := by
    obtain ⟨hresult, hbrowsers, hos⟩ := BrowserAct.agrees_settle (h := h) r b b' [] hb
    rw [Browser.settle_eq, Browser.settle_eq, hresult]
    exact ⟨rfl, hos, hbrowsers⟩
  abandon {b b'} r hb := by
    obtain ⟨-, hbrowsers, hos⟩ := BrowserAct.agrees_abandon (h := h) r b b' [] hb
    exact ⟨hos, hbrowsers⟩
  forgets {b} r hb := by
    obtain ⟨os, -, hexec⟩ := BrowserAct.exists_exec_abandon h r b
    change b.Like E (BrowserAct.exec (Browser.abandon h r) (b, [])).2.1
    rw [hexec]
    exact ⟨rfl, Host.Forgets.forgets r hb.responder, hb.steady⟩
  aside r b := by
    obtain ⟨os, haside, hexec⟩ := BrowserAct.exists_exec_abandon h r b
    change ∀ o ∈ (BrowserAct.exec (Browser.abandon h r) (b, [])).2.2, o.isAside = true
    rw [hexec]
    intro o ho
    obtain ho | ho := List.mem_append.mp ho
    · exact Host.Forgets.aside (E := E) r b.responder o ho
    · exact haside o ho

end PushButton
