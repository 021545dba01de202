import PushButton.Cli.Console
import PushButton.Proofs.Host.Forgetting

/-!
# What hosts may do

What happens when a host is asked may be of a certain kind only. A console in front of a host adds
nothing to it, and a browser adds its calls and the records in its own name.
-/

namespace PushButton

variable {σ ρ α β : Type}

/-- A host that keeps to things of a kind. -/
class Host.KeepsTo (P : Occurrence → Prop) (h : Host σ) : Prop where
  /-- It takes a request. -/
  ask (r : Request) (s : σ) : ∀ o ∈ (h.ask r s).2.2, P o
  /-- It settles a request. -/
  settle (r : Request) (s : σ) : ∀ o ∈ (h.settle r s).2.2, P o
  /-- It gives up a request. -/
  abandon (r : Request) (s : σ) : ∀ o ∈ (h.abandon r s).2, P o

variable {P : Occurrence → Prop}

/-- A console prints no more than the host in front of which it is. -/
theorem Host.keepsTo_replyOnConsole (before : σ) {x : Reply × σ × List Occurrence}
    (hx : ∀ o ∈ x.2.2, P o) : ∀ o ∈ (replyOnConsole before x).2.2, P o := by
  unfold replyOnConsole
  split
  · exact hx
  · exact fun o ho => hx o (List.takeWhile_subset _ ho)

instance {h : Host σ} [h.KeepsTo P] : h.onConsole.KeepsTo P where
  ask r s := by
    have hask := Host.KeepsTo.ask (P := P) (h := h) r s
    unfold Host.onConsole
    dsimp only
    generalize h.ask r s = out at hask ⊢
    obtain ⟨reply, after, os⟩ := out
    cases reply with
    | none => exact hask
    | some reply => exact Host.keepsTo_replyOnConsole s (x := (reply, after, os)) hask
  settle r s := Host.keepsTo_replyOnConsole s (Host.KeepsTo.settle (h := h) r s)
  abandon r s := Host.KeepsTo.abandon (h := h) r s

/-! ## Browsers -/

namespace BrowserAct

/-- An activity that keeps to things of a kind. -/
def KeepsTo (P : Occurrence → Prop) (act : BrowserAct ρ α) : Prop :=
  ∀ b os, (∀ o ∈ os, P o) → ∀ o ∈ (exec act (b, os)).2.2, P o

/-- A value. -/
theorem KeepsTo.pure (x : α) : KeepsTo P (pure x : BrowserAct ρ α) := fun _ _ hos => hos

/-- A failure. -/
theorem KeepsTo.throw (f : Failure) : KeepsTo P (throw f : BrowserAct ρ α) := fun _ _ hos => hos

/-- One activity after the other. -/
theorem KeepsTo.bind {act : BrowserAct ρ α} {next : α → BrowserAct ρ β} (hact : act.KeepsTo P)
    (hnext : ∀ a, (next a).KeepsTo P) : (act >>= next).KeepsTo P := by
  intro b os hos
  have hfirst := hact b os hos
  rw [exec_bind]
  generalize exec act (b, os) = out at hfirst ⊢
  obtain ⟨res, c, os₁⟩ := out
  cases res with
  | ok a => exact hnext a c os₁ hfirst
  | error f => exact hfirst

/-- A failure is caught. -/
theorem KeepsTo.tryCatch {act : BrowserAct ρ α} {handle : Failure → BrowserAct ρ α}
    (hact : act.KeepsTo P) (hhandle : ∀ f, (handle f).KeepsTo P) :
    (tryCatch act handle).KeepsTo P := by
  intro b os hos
  have hfirst := hact b os hos
  rw [exec_tryCatch]
  generalize exec act (b, os) = out at hfirst ⊢
  obtain ⟨res, c, os₁⟩ := out
  cases res with
  | ok a => exact hfirst
  | error f => exact hhandle f c os₁ hfirst

/-- Things of a kind, and then others. -/
theorem keepsTo_append {os os' : List Occurrence} (hos : ∀ o ∈ os, P o) (hos' : ∀ o ∈ os', P o) :
    ∀ o ∈ os ++ os', P o := fun o ho => (List.mem_append.mp ho).elim (hos o) (hos' o)

/-- The browser is looked at. -/
theorem keepsTo_state : (Browser.state : BrowserAct ρ (Browser ρ)).KeepsTo P := fun _ _ hos => hos

/-- The browser is changed. -/
theorem keepsTo_change (f : Browser ρ → Browser ρ) :
    (Browser.change f : BrowserAct ρ Unit).KeepsTo P := fun _ _ hos => hos

/-- There has to be a page. -/
theorem keepsTo_requirePage : (Browser.requirePage : BrowserAct ρ Unit).KeepsTo P := by
  refine keepsTo_state.bind fun b => ?_
  split
  · exact .throw _
  · exact .pure _

/-- The other host does something of the kind. -/
theorem keepsTo_delegate {f : ρ → α × ρ × List Occurrence} (hf : ∀ s, ∀ o ∈ (f s).2.2, P o) :
    (Browser.delegate f).KeepsTo P := fun b _ hos => keepsTo_append hos (hf b.responder)

section Kind

variable (hcall : ∀ c, P (.called c))
  (hlog : ∀ level message, P (.logged ⟨level, Browser.logger, message, [], none⟩))

include hcall in
/-- A call is made. -/
theorem keepsTo_call (c : PageCall) : (Browser.call c : BrowserAct ρ Unit).KeepsTo P := by
  intro b os hos
  rw [exec_call]
  exact keepsTo_append hos (by simpa using hcall c)

include hlog in
/-- A record is made. -/
theorem keepsTo_log (level : Level) (message : Text) :
    (Browser.log level message : BrowserAct ρ Unit).KeepsTo P :=
  fun _ _ hos => keepsTo_append hos (by simpa using hlog level message)

include hcall in
/-- The browser is closed. -/
theorem keepsTo_close : (Browser.close : BrowserAct ρ Unit).KeepsTo P := by
  have hstop : (do
      if (← Browser.state).driven then
        Browser.call .stopDriver
        Browser.change fun b => { b with driven := false } : BrowserAct ρ Unit).KeepsTo P := by
    refine keepsTo_state.bind fun b => ?_
    split
    · exact (keepsTo_call hcall _).bind fun _ => keepsTo_change _
    · exact .pure _
  unfold Browser.close
  refine keepsTo_state.bind fun b => ?_
  split
  · refine ((keepsTo_call hcall _).tryCatch fun _ => .pure _).bind fun _ => ?_
    exact (keepsTo_change _).bind fun _ => hstop
  · exact hstop

include hcall in
/-- A page is made. -/
theorem keepsTo_makePage : (Browser.makePage : BrowserAct ρ Unit).KeepsTo P := by
  have hcalled (c : PageCall) : (Browser.call c : BrowserAct ρ Unit).KeepsTo P :=
    keepsTo_call hcall c
  unfold Browser.makePage
  refine keepsTo_state.bind fun b => (hcalled _).bind fun _ => (keepsTo_change _).bind fun _ => ?_
  refine (hcalled _).bind fun _ => (keepsTo_change _).bind fun _ => (hcalled _).bind fun _ => ?_
  refine (hcalled _).bind fun _ => (hcalled _).bind fun _ => (hcalled _).bind fun _ => ?_
  exact hcalled _

include hcall hlog

/-- A dialog that was not settled is dismissed. -/
theorem keepsTo_dismissRest : (Browser.dismissRest : BrowserAct ρ Unit).KeepsTo P :=
  (keepsTo_call hcall _).tryCatch fun _ => keepsTo_log hlog _ _

/-- The surface is opened. -/
theorem keepsTo_start : (Browser.start : BrowserAct ρ Unit).KeepsTo P := by
  have hmake : (tryCatch Browser.makePage fun f => do
      Browser.close
      throw ⟨.refused, "could not open the browser surface: " ++ f.message⟩ :
        BrowserAct ρ Unit).KeepsTo P :=
    (keepsTo_makePage hcall).tryCatch fun f => (keepsTo_close hcall).bind fun _ => .throw _
  unfold Browser.start
  refine keepsTo_state.bind fun b => ?_
  split
  · exact hmake.bind fun _ => (keepsTo_change _).bind fun _ => keepsTo_log hlog _ _
  · exact .pure _

/-- The state of a surface is shown in the page. -/
theorem keepsTo_render (s : SurfaceState) :
    (Browser.render s : BrowserAct ρ Unit).KeepsTo P := by
  have hshow : (tryCatch (Browser.call (.evaluate (.render s.snapshot))) fun f =>
      Browser.log .debug ("render skipped: " ++ f.message) : BrowserAct ρ Unit).KeepsTo P :=
    (keepsTo_call hcall _).tryCatch fun f => keepsTo_log hlog _ _
  unfold Browser.render
  refine keepsTo_requirePage.bind fun _ => keepsTo_state.bind fun b => ?_
  split
  · exact hshow
  · exact .pure _

/-- A dialog is settled according to a reply. -/
theorem keepsTo_settleDialog (kind : DialogKind) (reply : Reply) :
    (Browser.settleDialog kind reply : BrowserAct ρ (Option Text)).KeepsTo P := by
  have hdismiss : (Browser.dismissRest : BrowserAct ρ Unit).KeepsTo P :=
    keepsTo_dismissRest hcall hlog
  have hsettleBy (c : PageCall) : (Browser.settleBy c : BrowserAct ρ Unit).KeepsTo P :=
    (keepsTo_call hcall c).tryCatch fun f => hdismiss.bind fun _ => .throw f
  have hfailed (f : Failure) : (Browser.settleFailed f : BrowserAct ρ Unit).KeepsTo P := by
    unfold Browser.settleFailed
    split
    · exact (keepsTo_log hlog _ _).bind fun _ => hdismiss
    · exact hdismiss.bind fun _ => .throw f
  unfold Browser.settleDialog
  split
  · exact (hfailed _).bind fun _ => .pure _
  · exact (hsettleBy _).bind fun _ => .pure _
  · exact (hsettleBy _).bind fun _ => .pure _
  · exact (hsettleBy _).bind fun _ => .pure _

variable {h : Host ρ} [h.KeepsTo P]

/-- A request is taken. -/
theorem keepsTo_take (r : Request) : (Browser.take h r).KeepsTo P := by
  refine keepsTo_requirePage.bind fun _ => ?_
  split
  · refine (keepsTo_call hcall _).bind fun _ => ?_
    refine (keepsTo_delegate (Host.KeepsTo.ask _)).bind fun reply => ?_
    cases reply with
    | none => exact .pure _
    | some reply => exact (keepsTo_settleDialog hcall hlog _ _).bind fun _ => .pure _
  · exact (keepsTo_call hcall _).bind fun _ => .pure _
  · exact (keepsTo_call hcall _).bind fun _ => .pure _

/-- A request that waits is settled. -/
theorem keepsTo_settle (r : Request) : (Browser.settle h r).KeepsTo P := by
  unfold Browser.settle
  split
  · refine (keepsTo_delegate (Host.KeepsTo.settle _)).bind fun reply => ?_
    exact (keepsTo_settleDialog hcall hlog _ _).bind fun _ => .pure _
  · exact .pure _

/-- A request that waits is given up. -/
theorem keepsTo_abandon (r : Request) : (Browser.abandon h r).KeepsTo P :=
  (keepsTo_delegate (Host.KeepsTo.abandon r)).bind fun _ => keepsTo_dismissRest hcall hlog

/-- **A browser keeps to what the host does that answers its dialogs**, if its calls and its records
are of the kind. -/
theorem keepsTo_host : (Browser.host h).KeepsTo P where
  ask r b := by
    rw [Browser.ask_eq]
    exact keepsTo_take hcall hlog r b [] (List.forall_mem_nil _)
  settle r b := by
    rw [Browser.settle_eq]
    exact keepsTo_settle hcall hlog r b [] (List.forall_mem_nil _)
  abandon r b := keepsTo_abandon hcall hlog r b [] (List.forall_mem_nil _)

end Kind

end BrowserAct

end PushButton
