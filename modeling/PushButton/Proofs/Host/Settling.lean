import PushButton.Proofs.Host.Forgetting

/-!
# Dialogs are settled

A dialog blocks its page until it is accepted or dismissed. Whatever the host that answers it comes
to, and whichever calls fail, no dialog is settled twice, and every dialog is settled whose calls
come through. It is accepted only as the answering host has replied. When the call that should
settle it fails, it is dismissed instead; only a dismissal that follows a failure of the answering
host is not tried again.
-/

namespace PushButton

variable {ρ : Type}

/-! ## Attempts -/

/-- The call that is made, where one is made. -/
def Occurrence.call? : Occurrence → Option PageCall
  | .called c => some c
  | .logged _ | .slept _ | .notified _ _ _ _ | .asked _ | .printed _ => none

/-- A call, with whether it comes through. -/
structure Attempt where
  /-- The call. -/
  call : PageCall
  /-- It comes through. -/
  done : Bool

namespace Browser

/-- Calls with whether they come through, after so many others. -/
def attemptsFrom (faults : Nat → PageCall → Option Text) : Nat → List PageCall → List Attempt
  | _, [] => []
  | n, c :: cs => ⟨c, (faults n c).isNone⟩ :: attemptsFrom faults (n + 1) cs

/-- The calls among some occurrences, with whether they come through in a browser. -/
def attempts (b : Browser ρ) (os : List Occurrence) : List Attempt :=
  attemptsFrom b.faults b.calls (os.filterMap Occurrence.call?)

/-- There are as many attempts as calls. -/
theorem length_attemptsFrom (faults : Nat → PageCall → Option Text) (n : Nat)
    (cs : List PageCall) : (attemptsFrom faults n cs).length = cs.length := by
  induction cs generalizing n with
  | nil => rfl
  | cons c cs ih => exact congrArg (· + 1) (ih (n + 1))

/-- Attempts behind others go on with their number. -/
theorem attemptsFrom_append (faults : Nat → PageCall → Option Text) (n : Nat)
    (cs cs' : List PageCall) : attemptsFrom faults n (cs ++ cs') =
      attemptsFrom faults n cs ++ attemptsFrom faults (n + cs.length) cs' := by
  induction cs generalizing n with
  | nil => rfl
  | cons c cs ih =>
    have hnumber : n + (c :: cs).length = n + 1 + cs.length := by
      rw [List.length_cons]
      omega
    rw [hnumber, List.cons_append, attemptsFrom, ih]
    rfl

/-- A browser has made some attempts, and the host that answers its dialogs was left alone. -/
structure Tries (x : Browser ρ × List Occurrence) (A : List Attempt)
    (y : Browser ρ × List Occurrence) : Prop where
  /-- The same calls fail. -/
  faults : y.1.faults = x.1.faults
  /-- The attempts are counted. -/
  calls : y.1.calls = x.1.calls + A.length
  /-- The answering host is in the same state. -/
  responder : y.1.responder = x.1.responder
  /-- The attempts have happened. -/
  past : ∃ os, y.2 = x.2 ++ os ∧ x.1.attempts os = A

namespace Tries

variable {x y z : Browser ρ × List Occurrence} {A A' : List Attempt}

/-- Attempts after other ones. -/
theorem trans (h : Tries x A y) (h' : Tries y A' z) : Tries x (A ++ A') z where
  faults := h'.faults.trans h.faults
  calls := by rw [h'.calls, h.calls, List.length_append, Nat.add_assoc]
  responder := h'.responder.trans h.responder
  past := by
    obtain ⟨os, hos, hA⟩ := h.past
    obtain ⟨os', hos', hA'⟩ := h'.past
    refine ⟨os ++ os', by rw [hos', hos, List.append_assoc], ?_⟩
    have hnumber : y.1.calls = x.1.calls + (os.filterMap Occurrence.call?).length := by
      rw [h.calls, ← hA, attempts, length_attemptsFrom]
    rw [← hA, ← hA', attempts, List.filterMap_append, attemptsFrom_append, attempts, attempts,
      h.faults, hnumber]

/-- A record is no attempt. -/
theorem logged (b : Browser ρ) (past : List Occurrence) (r : Record) :
    Tries (b, past) [] (b, past ++ [.logged r]) := ⟨rfl, rfl, rfl, [.logged r], rfl, rfl⟩

end Tries

end Browser

namespace BrowserAct

open Browser

/-- A call is an attempt. -/
theorem tries_call (c : PageCall) (b : Browser ρ) (past : List Occurrence) :
    Tries (b, past) [⟨c, (b.faults b.calls c).isNone⟩]
      ({ b with calls := b.calls + 1 }, past ++ [.called c]) :=
  ⟨rfl, rfl, rfl, [.called c], rfl, rfl⟩

/-- A dialog that was not settled is dismissed by one attempt, and that never fails. -/
theorem exists_tries_dismissRest (x : Browser ρ × List Occurrence) :
    ∃ d y, exec dismissRest x = (.ok (), y) ∧ Tries x [⟨.dismiss, d⟩] y := by
  obtain ⟨b, past⟩ := x
  have hcall := tries_call .dismiss b past
  unfold dismissRest
  rw [exec_tryCatch, exec_call]
  cases hfault : b.faults b.calls .dismiss with
  | none =>
    rw [hfault] at hcall
    exact ⟨true, _, rfl, hcall⟩
  | some message =>
    rw [hfault] at hcall
    exact ⟨false, _, rfl, hcall.trans (.logged _ _ _)⟩

/-- A dialog is settled by a call, or dismissed when the call fails. -/
theorem tries_settleBy (c : PageCall) (x : Browser ρ × List Occurrence) :
    Tries x [⟨c, true⟩] (exec (settleBy c) x).2 ∨
      ∃ d, Tries x [⟨c, false⟩, ⟨.dismiss, d⟩] (exec (settleBy c) x).2 := by
  obtain ⟨b, past⟩ := x
  have hcall := tries_call c b past
  unfold settleBy
  rw [exec_tryCatch, exec_call]
  cases hfault : b.faults b.calls c with
  | none =>
    rw [hfault] at hcall
    exact .inl hcall
  | some message =>
    rw [hfault] at hcall
    obtain ⟨d, y, hexec, hdismiss⟩ :=
      exists_tries_dismissRest ({ b with calls := b.calls + 1 }, past ++ [.called c])
    dsimp only [Option.elim_some]
    rw [exec_bind, hexec]
    exact .inr ⟨d, hcall.trans hdismiss⟩

/-- When the answering host has failed, the dialog is dismissed by one attempt. -/
theorem tries_settleFailed (f : Failure) (x : Browser ρ × List Occurrence) :
    ∃ d, Tries x [⟨.dismiss, d⟩] (exec (settleFailed f) x).2 := by
  obtain ⟨b, past⟩ := x
  unfold settleFailed
  split
  · let record : Record :=
      { level := .warning
        logger := Browser.logger
        message := "Dialog could not be answered, dismissing: " ++ f.message }
    have hlog : exec (Browser.log .warning
        ("Dialog could not be answered, dismissing: " ++ f.message)) (b, past) =
          (.ok (), b, past ++ [.logged record]) := rfl
    obtain ⟨d, y, hexec, hdismiss⟩ := exists_tries_dismissRest (b, past ++ [.logged record])
    refine ⟨d, ?_⟩
    rw [exec_bind, hlog]
    dsimp only
    rw [hexec]
    exact (Tries.logged b past record).trans hdismiss
  · obtain ⟨d, y, hexec, hdismiss⟩ := exists_tries_dismissRest (b, past)
    refine ⟨d, ?_⟩
    rw [exec_bind, hexec]
    exact hdismiss

end BrowserAct

/-! ## Dialogs -/

/-- What the host that answers dialogs comes to about one. -/
inductive Verdict where
  /-- It was not asked. -/
  | notAsked
  /-- It has replied, or failed. -/
  | replied (reply : Reply)
  /-- It was given up while it made the browser wait. -/
  | givenUp
deriving DecidableEq, Repr

/-- The answering host has failed, or was given up. -/
def Verdict.hasFailed : Verdict → Bool
  | .replied (.failed _) | .givenUp => true
  | .notAsked | .replied .done | .replied (.answer _) => false

/-- What the answering host is asked about a dialog. -/
def DialogKind.request? (kind : DialogKind) (message : Text) : Option Request :=
  match kind with
  | .alert => some (.alert message)
  | .prompt => some (.prompt message)
  | .other => none

/-- The reply of a host that is waited for, with its state and what happens. -/
def Host.answer (h : Host ρ) (r : Request) (s : ρ) : Reply × ρ × List Occurrence :=
  match h.ask r s with
  | (some reply, s', os) => (reply, s', os)
  | (none, s', os) => ((h.settle r s').1, (h.settle r s').2.1, os ++ (h.settle r s').2.2)

/-- What a host comes to about a dialog if it is waited for, with its state and what happens. -/
def Host.verdict (h : Host ρ) (kind : DialogKind) (message : Text) (s : ρ) :
    Verdict × ρ × List Occurrence :=
  match kind.request? message with
  | some r => (.replied (h.answer r s).1, (h.answer r s).2)
  | none => (.notAsked, s, [])

namespace DialogKind

/-- The call by which a dialog is accepted, where it is to be accepted. -/
inductive Accepts : DialogKind → Verdict → PageCall → Prop
  /-- A message, once the answering host has returned. -/
  | alert {reply : Reply} : (∀ f, reply ≠ .failed f) →
      Accepts .alert (.replied reply) (.accept none)
  /-- A question, with the very answer that the answering host has given. -/
  | prompt (t : Text) : Accepts .prompt (.replied (.answer (some t))) (.accept (some t))
  /-- Anything else, without asking. -/
  | other : Accepts .other .notAsked (.accept none)

/-- The attempts by which a dialog is settled. -/
structure IsSettled (kind : DialogKind) (v : Verdict) (A : List Attempt) : Prop where
  /-- It is accepted only where it is to be accepted; otherwise it is dismissed. -/
  only : ∀ x ∈ A, kind.Accepts v x.call ∨ x.call = .dismiss
  /-- Where it is to be accepted, that is tried first. -/
  first : ∀ c, kind.Accepts v c → (A.head?.map Attempt.call) = some c
  /-- It is settled once at most. -/
  atMostOnce : A.countP (·.done) ≤ 1
  /-- It is settled once if no attempt fails. -/
  once : (∀ x ∈ A, x.done = true) → A.countP (·.done) = 1
  /-- When the first attempt fails, it is dismissed instead, unless the host has failed. -/
  again : ∀ c rest, A = ⟨c, false⟩ :: rest → v.hasFailed = false →
    ∃ x ∈ rest, x.call = .dismiss
  /-- When the answering host has failed, one attempt is made to dismiss it. -/
  failed : v.hasFailed = true → ∃ d, A = [⟨.dismiss, d⟩]

variable {kind : DialogKind} {v : Verdict}

/-- There is one call by which a dialog is accepted. -/
theorem Accepts.unique {c c' : PageCall} (h : kind.Accepts v c) (h' : kind.Accepts v c') :
    c' = c := by
  cases h with
  | alert _ | prompt _ | other =>
    cases h'
    rfl

/-- The first call that settles a dialog: it accepts the dialog where that is to be accepted, and
dismisses it otherwise. -/
def Suits (kind : DialogKind) (v : Verdict) (c : PageCall) : Prop :=
  (kind.Accepts v c ∨ c = .dismiss) ∧ ∀ c', kind.Accepts v c' → c' = c

/-- Accepting a dialog suits where it is to be accepted. -/
theorem Accepts.suits {c : PageCall} (h : kind.Accepts v c) : kind.Suits v c :=
  ⟨.inl h, fun _ h' => h.unique h'⟩

/-- Dismissing a dialog suits where it is not to be accepted. -/
theorem suits_dismiss (hnone : ∀ c, ¬ kind.Accepts v c) : kind.Suits v .dismiss :=
  ⟨.inr rfl, fun c hc => (hnone c hc).elim⟩

/-- A dialog is settled by a call that suits, or by dismissing it when that fails. -/
theorem Suits.isSettled {c : PageCall} (hc : kind.Suits v c) (hv : v.hasFailed = false) :
    kind.IsSettled v [⟨c, true⟩] ∧ ∀ d, kind.IsSettled v [⟨c, false⟩, ⟨.dismiss, d⟩] := by
  obtain ⟨honly, hfirst⟩ := hc
  have hfailed {A : List Attempt} (hv' : v.hasFailed = true) : ∃ d, A = [⟨.dismiss, d⟩] := by
    rw [hv] at hv'
    cases hv'
  constructor
  · refine ⟨by simpa using honly, ?_, by simp, by simp, by simp, hfailed⟩
    exact fun c' hc' => congrArg some (hfirst c' hc').symm
  · intro d
    refine ⟨by simpa using honly, ?_, ?_, by simp, by simp, hfailed⟩
    · exact fun c' hc' => congrArg some (hfirst c' hc').symm
    · cases d with
      | false | true => simp

/-- A dialog is settled by an attempt to dismiss it when the answering host has failed. -/
theorem isSettled_dismiss (hnone : ∀ c, ¬ kind.Accepts v c) (hv : v.hasFailed = true) (d : Bool) :
    kind.IsSettled v [⟨.dismiss, d⟩] where
  only := by simp
  first c hc := (hnone c hc).elim
  atMostOnce := by cases d <;> simp
  once := by simp
  again _ _ _ hv' := by simp [hv] at hv'
  failed _ := ⟨d, rfl⟩

end DialogKind

/-- A dialog is settled from one state of a browser to another, after the answering host has come to
a verdict, got into a state, and things have happened. -/
def Browser.Settles (kind : DialogKind) (verdict : Verdict × ρ × List Occurrence)
    (x y : Browser ρ × List Occurrence) : Prop :=
  y.1.responder = verdict.2.1 ∧ ∃ own, y.2 = x.2 ++ verdict.2.2 ++ own ∧
    kind.IsSettled verdict.1 (x.1.attempts own)

/-- Attempts that are made behind a verdict settle a dialog. -/
theorem Browser.Settles.of_tries {kind : DialogKind} {v : Verdict} {b : Browser ρ} {s : ρ}
    {past os : List Occurrence} {A : List Attempt} {y : Browser ρ × List Occurrence}
    (h : Tries ({ b with responder := s }, past ++ os) A y) (hA : kind.IsSettled v A) :
    Settles kind (v, s, os) (b, past) y := by
  obtain ⟨own, hown, rfl⟩ := h.past
  exact ⟨h.responder, own, hown, hA⟩

namespace BrowserAct

open Browser

/-- An activity whose value is changed leaves what it leaves alone. -/
theorem exec_bind_pure {α β : Type} (act : BrowserAct ρ α) (f : α → β)
    (x : Browser ρ × List Occurrence) :
    (exec (act >>= fun a => pure (f a)) x).2 = (exec act x).2 := by
  rw [exec_bind]
  obtain ⟨res, y⟩ := exec act x
  cases res with
  | ok _ => rfl
  | error f => rfl

/-- A dialog is settled by a call that suits, or dismissed when that fails. -/
theorem exists_isSettled_settleBy {kind : DialogKind} {v : Verdict} {c : PageCall}
    (hc : kind.Suits v c) (hv : v.hasFailed = false) (answer : Option Text)
    (x : Browser ρ × List Occurrence) :
    ∃ A, Tries x A (exec (do settleBy c; pure answer) x).2 ∧ kind.IsSettled v A := by
  obtain ⟨hdone, hfails⟩ := hc.isSettled hv
  rw [exec_bind_pure]
  obtain htries | ⟨d, htries⟩ := tries_settleBy c x
  · exact ⟨_, htries, hdone⟩
  · exact ⟨_, htries, hfails d⟩

/-- A dialog is settled according to a reply of the answering host. -/
theorem exists_isSettled_settleDialog {kind : DialogKind} (hkind : kind ≠ .other) (reply : Reply)
    (x : Browser ρ × List Occurrence) :
    ∃ A, Tries x A (exec (settleDialog kind reply) x).2 ∧ kind.IsSettled (.replied reply) A := by
  have hmessage {reply : Reply} (h : ∀ f, reply ≠ .failed f) :
      DialogKind.Suits .alert (.replied reply) (.accept none) := (DialogKind.Accepts.alert h).suits
  cases reply with
  | failed f =>
    have hsplit : (settleDialog kind (.failed f) : BrowserAct ρ (Option Text)) =
        (do settleFailed f; pure none) := by cases kind <;> rfl
    rw [hsplit, exec_bind_pure]
    obtain ⟨d, htries⟩ := tries_settleFailed f x
    refine ⟨_, htries, DialogKind.isSettled_dismiss (fun c hc => ?_) rfl d⟩
    cases hc with
    | alert hreturned => exact hreturned f rfl
  | done =>
    cases kind with
    | alert =>
      have hreturned : ∀ f, Reply.done ≠ .failed f := by simp
      exact exists_isSettled_settleBy (hmessage hreturned) rfl none x
    | prompt =>
      have hnone : ∀ c, ¬ DialogKind.Accepts .prompt (.replied .done) c := by rintro c ⟨⟩
      exact exists_isSettled_settleBy (DialogKind.suits_dismiss hnone) rfl none x
    | other => exact (hkind rfl).elim
  | answer t =>
    cases kind with
    | alert =>
      have hreturned : ∀ f, Reply.answer t ≠ .failed f := by simp
      have hsplit : (settleDialog .alert (.answer t) : BrowserAct ρ (Option Text)) =
          (do settleBy (.accept none); pure none) := by cases t <;> rfl
      rw [hsplit]
      exact exists_isSettled_settleBy (hmessage hreturned) rfl none x
    | prompt =>
      cases t with
      | none =>
        have hnone : ∀ c, ¬ DialogKind.Accepts .prompt (.replied (.answer none)) c := by
          rintro c ⟨⟩
        exact exists_isSettled_settleBy (DialogKind.suits_dismiss hnone) rfl none x
      | some t => exact exists_isSettled_settleBy (DialogKind.Accepts.prompt t).suits rfl (some t) x
    | other => exact (hkind rfl).elim

/-- The answering host is asked about a dialog, which is settled according to its reply. -/
theorem exec_answerDialog (h : Host ρ) {kind : DialogKind} {message : Text} {r : Request}
    (hr : kind.request? message = some r) (b : Browser ρ) (past : List Occurrence) :
    exec (answerDialog h kind message) (b, past) =
      exec (settleDialog kind (h.answer r b.responder).1)
        ({ b with responder := (h.answer r b.responder).2.1 },
          past ++ (h.answer r b.responder).2.2) := by
  have hdelegate : exec (delegate (h.ask r)) (b, past) = (.ok (h.ask r b.responder).1,
      { b with responder := (h.ask r b.responder).2.1 }, past ++ (h.ask r b.responder).2.2) := rfl
  unfold answerDialog Host.answer
  cases kind with
  | alert | prompt =>
    cases hr
    dsimp only
    rw [exec_bind, exec_bind, hdelegate]
    generalize h.ask _ b.responder = out
    obtain ⟨reply, s, os⟩ := out
    cases reply with
    | some reply => rfl
    | none =>
      rw [← List.append_assoc]
      rfl
  | other => cases hr

end BrowserAct

open BrowserAct in
/-- **Every dialog is settled.** Whatever the answering host does about a dialog, and whichever
calls fail, the dialog is settled by attempts of its own behind what that host does. One attempt at
most comes through, and one does where none fails. The dialog is accepted only where that is to be
done: a message once the host has returned, a question with its very answer, anything else without
asking; that is tried first, and otherwise the dialog is dismissed. When the first attempt fails the
dialog is dismissed instead; when the host itself fails, one attempt is made to dismiss it. All this
is true of a dialog that is answered without waiting, of one whose answer was waited for, and of one
that is given up with the request that raised it. -/
theorem Browser.settles_every_dialog (h : Host ρ) (b : Browser ρ) (past : List Occurrence) :
    (∀ kind message, Settles kind (h.verdict kind message b.responder) (b, past)
      (exec (answerDialog h kind message) (b, past)).2) ∧
    ∀ r script kind, scriptOf r = some (script, kind) →
      Settles kind (.replied (h.settle r b.responder).1, (h.settle r b.responder).2) (b, past)
        (exec (settle h r) (b, past)).2 ∧
      Settles kind (.givenUp, h.abandon r b.responder) (b, past)
        (exec (abandon h r) (b, past)).2 := by
  constructor
  · intro kind message
    unfold Host.verdict
    cases hr : kind.request? message with
    | some r =>
      have hkind : kind ≠ .other := by
        rintro rfl
        cases hr
      obtain ⟨A, htries, hA⟩ := exists_isSettled_settleDialog hkind (h.answer r b.responder).1
        ({ b with responder := (h.answer r b.responder).2.1 }, past ++ (h.answer r b.responder).2.2)
      rw [exec_answerDialog h hr]
      exact .of_tries htries hA
    | none =>
      cases kind with
      | alert | prompt => cases hr
      | other =>
        obtain ⟨A, htries, hA⟩ :=
          exists_isSettled_settleBy DialogKind.Accepts.other.suits rfl none (b, past)
        have hbehind : Tries (b, past ++ []) A
            (exec (answerDialog h .other message) (b, past)).2 := by rwa [List.append_nil]
        exact .of_tries hbehind hA
  · intro r script kind hr
    have hkind : kind ≠ .other := by
      rintro rfl
      cases r with
      | alert | prompt | reload | close => cases hr
    constructor
    · have hsettled : exec (delegate (h.settle r)) (b, past) = (.ok (h.settle r b.responder).1,
          { b with responder := (h.settle r b.responder).2.1 },
          past ++ (h.settle r b.responder).2.2) := rfl
      obtain ⟨A, htries, hA⟩ := exists_isSettled_settleDialog hkind (h.settle r b.responder).1
        ({ b with responder := (h.settle r b.responder).2.1 },
          past ++ (h.settle r b.responder).2.2)
      unfold settle
      rw [hr]
      dsimp only
      rw [exec_bind, hsettled]
      dsimp only
      rw [exec_bind_pure]
      exact .of_tries htries hA
    · obtain ⟨d, y, hexec, htries⟩ := exists_tries_dismissRest
        ({ b with responder := (h.abandon r b.responder).1 }, past ++ (h.abandon r b.responder).2)
      have habandon : exec (abandon h r) (b, past) = (.ok (), y) := hexec
      have hnone : ∀ c, ¬ kind.Accepts .givenUp c := by rintro c ⟨⟩
      rw [habandon]
      exact .of_tries htries (DialogKind.isSettled_dismiss hnone rfl d)

/-- A question is answered after it has waited, but cannot be accepted: it is dismissed instead. -/
theorem Browser.settles_question_that_cannot_be_accepted :
    let b : Browser HostScript := {
      settings := {}, label := "Go"
      faults := fun n _ => if n = 0 then some "dialog gone" else none
      hasPage := true, responder := { answers := [some "Eve"], suspended := ["prompt"] } }
    let own := (BrowserAct.exec (settle HostScript.host (.prompt "Name?")) (b, [])).2.2
    scriptOf (.prompt "Name?") = some (.prompt "Name?", .prompt) ∧
      b.attempts own = [⟨.accept (some "Eve"), false⟩, ⟨.dismiss, true⟩] ∧
      DialogKind.prompt.IsSettled (.replied (.answer (some "Eve"))) (b.attempts own) := by
  intro b own
  obtain ⟨-, hscript⟩ := settles_every_dialog HostScript.host b []
  obtain ⟨⟨-, own', hown, hA⟩, -⟩ := hscript (.prompt "Name?") (.prompt "Name?") .prompt rfl
  have hsame : own = own' := hown
  exact ⟨rfl, rfl, hsame ▸ hA⟩

/-- A host refuses to answer a question, and the attempt to dismiss the dialog fails: it is not
tried again. -/
theorem Browser.not_every_failed_call_followed :
    ¬ ∀ (b : Browser HostScript) (kind : DialogKind) (message : Text) (os : List Occurrence)
      (c : PageCall) (rest : List Attempt),
      (BrowserAct.exec (answerDialog HostScript.host kind message) (b, [])).2.2 = os →
      b.attempts os = ⟨c, false⟩ :: rest → ∃ x ∈ rest, x.call = .dismiss := by
  intro hall
  obtain ⟨x, hx, -⟩ := hall {
    settings := {}, label := "Go", faults := fun _ _ => some "dialog gone", hasPage := true
    responder := { refused := ["prompt"] } } .prompt "Name?" _ .dismiss [] rfl rfl
  cases hx

end PushButton
