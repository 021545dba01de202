import Mathlib.Data.List.Induction
import PushButton.Proofs.Host.Settling

/-!
# What a browser holds

To open its surface a browser starts a driver and launches a browser, and it has to give both back.
However often it is opened and closed, and whichever calls fail, it never obtains what it still
holds and never gives back what it does not hold, so that everything is given back once. Nothing is
held when it could not be opened, and when it was closed. The page that it shows belongs to a
browser that is held, unless it was closed while there was a page.
-/

namespace PushButton

variable {ρ : Type}

/-! ## Resources -/

/-- What a browser obtains to open its surface, and has to give back. -/
inductive Resource where
  /-- The driver. -/
  | driver
  /-- The browser that the driver launches. -/
  | browser
deriving DecidableEq, Repr

/-- The resource that a call is about. -/
def PageCall.resource? : PageCall → Option Resource
  | .startDriver | .stopDriver => some .driver
  | .launch _ _ | .closeBrowser => some .browser
  | _ => none

namespace Resource

/-- An attempt by which a resource is obtained. -/
def obtains : Resource → Attempt → Bool
  | .driver, ⟨.startDriver, done⟩ => done
  | .browser, ⟨.launch _ _, done⟩ => done
  | _, _ => false

/-- An attempt by which a resource is given back; that it fails does not matter. -/
def givesBack : Resource → Attempt → Bool
  | .driver, ⟨.stopDriver, _⟩ => true
  | .browser, ⟨.closeBrowser, _⟩ => true
  | _, _ => false

/-- Whether a resource is held after an attempt. There is no answer where it is obtained while it is
held, or given back while it is not. -/
def next (r : Resource) (held : Bool) (a : Attempt) : Option Bool :=
  match r.obtains a, r.givesBack a, held with
  | true, _, false => some true
  | false, true, true => some false
  | false, false, held => some held
  | _, _, _ => none

/-- Whether a resource is held after some attempts, where there is an answer after each of them. -/
def heldAfter (r : Resource) (held : Bool) (A : List Attempt) : Option Bool :=
  A.foldlM r.next held

variable (r : Resource)

/-- Attempts after other ones. -/
theorem heldAfter_append (held : Bool) (A A' : List Attempt) :
    r.heldAfter held (A ++ A') = (r.heldAfter held A).bind (r.heldAfter · A') := List.foldlM_append

/-- A call that is not about a resource leaves whether it is held. -/
theorem next_of_ne {c : PageCall} (hc : c.resource? ≠ some r) (held done : Bool) :
    r.next held ⟨c, done⟩ = some held := by
  cases c with
  | startDriver | stopDriver =>
    cases r with
    | driver => exact (hc rfl).elim
    | browser => rfl
  | launch | closeBrowser =>
    cases r with
    | driver => rfl
    | browser => exact (hc rfl).elim
  | _ => cases r <;> rfl

/-- One attempt. -/
theorem heldAfter_one (held : Bool) (a : Attempt) : r.heldAfter held [a] = r.next held a := by
  unfold heldAfter
  rw [List.foldlM_cons]
  exact bind_pure _

/-- An attempt changes by one how often a resource was obtained or given back. -/
theorem toNat_next {held held' : Bool} {a : Attempt} (h : r.next held a = some held') :
    (r.obtains a).toNat + held.toNat = (r.givesBack a).toNat + held'.toNat := by
  have honce : r.obtains a = true → r.givesBack a = false := by
    intro hobtains
    cases r with
    | driver | browser =>
      obtain ⟨call, done⟩ := a
      cases call with
      | startDriver | launch => rfl
      | _ => cases hobtains
  unfold next at h
  split at h <;> simp_all

/-- A resource is obtained as often as it is given back, but for the one that is held. -/
theorem countP_obtains {held held' : Bool} {A : List Attempt}
    (h : r.heldAfter held A = some held') :
    A.countP r.obtains + held.toNat = A.countP r.givesBack + held'.toNat := by
  induction A generalizing held with
  | nil =>
    obtain rfl : held = held' := Option.some.inj h
    rfl
  | cons a A ih =>
    obtain ⟨middle, hfirst, hrest⟩ := Option.bind_eq_some_iff.mp h
    have hrest := ih hrest
    have hfirst := r.toNat_next hfirst
    have hcount (P : Attempt → Bool) : (a :: A).countP P = A.countP P + (P a).toNat := by
      rw [List.countP_cons]
      cases P a <;> rfl
    rw [hcount, hcount]
    omega

end Resource

namespace Browser

/-- A resource is held. -/
def holds (b : Browser ρ) : Resource → Bool
  | .driver => b.driven
  | .browser => b.launched

/-- A browser has made some attempts by which it has obtained what it holds and given back the
rest. -/
structure Minds (x : Browser ρ × List Occurrence) (A : List Attempt)
    (y : Browser ρ × List Occurrence) : Prop extends Tries x A y where
  /-- What is held is what the attempts leave. -/
  held : ∀ r, r.heldAfter (x.1.holds r) A = some (y.1.holds r)

/-- It is noted whether a resource is held. -/
def note (r : Resource) (held : Bool) (b : Browser ρ) : Browser ρ :=
  match r with
  | .driver => { b with driven := held }
  | .browser => { b with launched := held }

/-- What is held after that was noted of a resource. -/
theorem holds_note (r r' : Resource) (held : Bool) (b : Browser ρ) :
    (note r held b).holds r' = if r' = r then held else b.holds r' := by
  cases r with
  | driver | browser =>
    cases r' with
    | driver | browser => rfl

/-- Nothing changes when it is noted what is the case. -/
theorem note_holds (r : Resource) (b : Browser ρ) : note r (b.holds r) b = b := by cases r <;> rfl

/-- Nothing but what is held changes when that is noted. -/
theorem hasPage_note (r : Resource) (held : Bool) (b : Browser ρ) :
    (note r held b).hasPage = b.hasPage := by cases r <;> rfl

/-- A browser that holds nothing. -/
def HoldsNothing (b : Browser ρ) : Prop := ∀ r, b.holds r = false

namespace Minds

variable {x y z : Browser ρ × List Occurrence} {A A' : List Attempt}

/-- Nothing was attempted. -/
theorem refl (x : Browser ρ × List Occurrence) : Minds x [] x :=
  ⟨⟨rfl, rfl, rfl, [], (List.append_nil _).symm, rfl⟩, fun _ => rfl⟩

/-- Attempts after other ones. -/
theorem trans (h : Minds x A y) (h' : Minds y A' z) : Minds x (A ++ A') z where
  toTries := h.toTries.trans h'.toTries
  held r := by rw [Resource.heldAfter_append, h.held r, Option.bind_some, h'.held r]

end Minds

/-- The calls by which a surface is opened. -/
def openingCalls (b : Browser ρ) : List PageCall :=
  [.startDriver, .launch b.settings.browser b.settings.launchOptions, .newContext, .newPage,
    .route (b.settings.origin ++ "**"), .listen, .goto b.settings.origin]

end Browser

namespace BrowserAct

open Browser

/-- An activity makes some calls one after the other, up to the first that fails. -/
def Makes (act : BrowserAct ρ Unit) (x : Browser ρ × List Occurrence) (calls : List PageCall) :
    Prop :=
  ∃ A y, Minds x A y ∧ y.1.hasPage = x.1.hasPage ∧
    (exec act x = (.ok (), y) ∧ A = calls.map (⟨·, true⟩) ∨ ∃ f, exec act x = (.error f, y))

variable {b : Browser ρ} {past : List Occurrence} {c : PageCall} {rest : BrowserAct ρ Unit}
  {calls : List PageCall}

/-- A call about a resource, after which it is noted whether that is held. -/
theorem minds_call (past : List Occurrence) {r : Resource} {held done : Bool}
    (hc : c.resource? = some r) (hdone : (b.faults b.calls c).isNone = done)
    (hnext : r.next (b.holds r) ⟨c, done⟩ = some held) :
    Minds (b, past) [⟨c, done⟩]
      (note r held { b with calls := b.calls + 1 }, past ++ [.called c]) where
  faults := by cases r <;> rfl
  calls := by cases r <;> rfl
  responder := by cases r <;> rfl
  past := ⟨[.called c], rfl, by rw [← hdone]; rfl⟩
  held r' := by
    rw [r'.heldAfter_one, holds_note]
    split
    · next h => exact h ▸ hnext
    · next h => exact r'.next_of_ne (by simpa [hc] using Ne.symm h) _ _

/-- A call that is about no resource. -/
theorem minds_plain_call {done : Bool} (hc : c.resource? = none)
    (hdone : (b.faults b.calls c).isNone = done) :
    Minds (b, past) [⟨c, done⟩] ({ b with calls := b.calls + 1 }, past ++ [.called c]) where
  toTries := hdone ▸ tries_call c b past
  held r := (r.heldAfter_one _ _).trans (r.next_of_ne (by simp [hc]) _ _)

/-- A call is made, and then other ones from a state on in which it is noted what is held. -/
theorem Makes.call_bind {next : BrowserAct ρ Unit} {b' : Browser ρ}
    (hfails : (b.faults b.calls c).isNone = false →
      Minds (b, past) [⟨c, false⟩] ({ b with calls := b.calls + 1 }, past ++ [.called c]))
    (hdone : (b.faults b.calls c).isNone = true →
      Minds (b, past) [⟨c, true⟩] (b', past ++ [.called c]))
    (hnext : exec rest ({ b with calls := b.calls + 1 }, past ++ [.called c]) =
      exec next (b', past ++ [.called c]))
    (hpage : b'.hasPage = b.hasPage) (hrest : Makes next (b', past ++ [.called c]) calls) :
    Makes (call c >>= fun _ => rest) (b, past) (c :: calls) := by
  unfold Makes
  rw [exec_bind, exec_call]
  cases hfault : b.faults b.calls c with
  | some message => exact ⟨_, _, hfails (by rw [hfault]; rfl), rfl, .inr ⟨_, rfl⟩⟩
  | none =>
    obtain ⟨A, y, hminds, hpage', hexec⟩ := hrest
    refine ⟨_, y, (hdone (by rw [hfault]; rfl)).trans hminds, hpage'.trans hpage, ?_⟩
    dsimp only [Option.elim_none]
    rw [hnext]
    exact hexec.imp_left fun ⟨hok, hA⟩ => ⟨hok, by rw [hA]; rfl⟩

/-- A resource is obtained and noted, and then other calls are made. -/
theorem Makes.obtain_bind (r : Resource) (hc : c.resource? = some r)
    (hobtains : ∀ done, r.next false ⟨c, done⟩ = some done) (hr : b.holds r = false)
    (hrest : Makes rest (note r true { b with calls := b.calls + 1 }, past ++ [.called c]) calls) :
    Makes (call c >>= fun _ => change (note r true) >>= fun _ => rest) (b, past) (c :: calls) := by
  have hfails (hfault : (b.faults b.calls c).isNone = false) :
      Minds (b, past) [⟨c, false⟩] ({ b with calls := b.calls + 1 }, past ++ [.called c]) := by
    have hminds := minds_call past hc hfault (by rw [hr]; exact hobtains false)
    have hsame : note r false { b with calls := b.calls + 1 } = { b with calls := b.calls + 1 } :=
      hr ▸ note_holds r { b with calls := b.calls + 1 }
    rwa [hsame] at hminds
  exact .call_bind hfails
    (fun hfault => minds_call past hc hfault (by rw [hr]; exact hobtains true))
    rfl (hasPage_note r true _) hrest

/-- A call that is about no resource is made, and then other ones. -/
theorem Makes.plain_bind (hc : c.resource? = none)
    (hrest : Makes rest ({ b with calls := b.calls + 1 }, past ++ [.called c]) calls) :
    Makes (call c >>= fun _ => rest) (b, past) (c :: calls) :=
  .call_bind (minds_plain_call hc) (minds_plain_call hc) rfl rfl hrest

/-- A call that is about no resource is the last one. -/
theorem Makes.plain (hc : c.resource? = none) : Makes (call c) (b, past) [c] := by
  have hnothing : Makes (pure ()) ({ b with calls := b.calls + 1 }, past ++ [.called c]) [] :=
    ⟨[], _, .refl _, rfl, .inl ⟨rfl, rfl⟩⟩
  exact bind_pure_unit (x := call c) ▸ Makes.plain_bind hc hnothing

/-- The browser is looked at first. -/
theorem Makes.state_bind {next : Browser ρ → BrowserAct ρ Unit}
    (h : Makes (next b) (b, past) calls) : Makes (state >>= next) (b, past) calls := h

/-- A page is made by the calls by which a surface is opened. -/
theorem makes_makePage (past : List Occurrence) (hnothing : b.HoldsNothing) :
    Makes makePage (b, past) b.openingCalls := by
  have hdriver (done : Bool) : Resource.driver.next false ⟨.startDriver, done⟩ = some done := by
    cases done <;> rfl
  have hbrowser (done : Bool) : Resource.browser.next false
      ⟨.launch b.settings.browser b.settings.launchOptions, done⟩ = some done := by
    cases done <;> rfl
  refine .state_bind ?_
  refine .obtain_bind .driver rfl hdriver (hnothing .driver) ?_
  refine .obtain_bind .browser rfl hbrowser (hnothing .browser) ?_
  exact .plain_bind rfl (.plain_bind rfl (.plain_bind rfl (.plain_bind rfl (.plain rfl))))

/-- The driver is stopped where it is there, when there is no browser. -/
theorem exists_exec_stop (past : List Occurrence) (hstop : ∀ n, b.faults n .stopDriver = none)
    (hl : b.launched = false) :
    ∃ A y, exec (if b.driven then (do call .stopDriver; change (note .driver false)) else pure ())
        (b, past) = (.ok (), y) ∧
      Minds (b, past) A y ∧ y.1.HoldsNothing ∧ y.1.hasPage = b.hasPage := by
  cases hd : b.driven with
  | false =>
    refine ⟨[], _, rfl, .refl _, fun r => ?_, rfl⟩
    cases r with
    | driver => exact hd
    | browser => exact hl
  | true =>
    have hnext : Resource.driver.next (b.holds .driver) ⟨.stopDriver, true⟩ = some false := by
      unfold holds
      rw [hd]
      rfl
    have hminds := minds_call past (r := .driver) rfl (by rw [hstop]; rfl) hnext
    rw [if_pos rfl, exec_bind, exec_call, hstop]
    refine ⟨_, _, rfl, hminds, fun r => ?_, rfl⟩
    cases r with
    | driver => rfl
    | browser => exact hl

/-- What is held is given back when a browser is closed. -/
theorem exists_exec_close (past : List Occurrence) (hstop : ∀ n, b.faults n .stopDriver = none) :
    ∃ A y, exec close (b, past) = (.ok (), y) ∧ Minds (b, past) A y ∧ y.1.HoldsNothing ∧
      y.1.hasPage = b.hasPage := by
  unfold close
  have hstate : exec state (b, past) = (.ok b, b, past) := rfl
  rw [exec_bind, hstate]
  dsimp only
  cases hl : b.launched with
  | false => exact exists_exec_stop past hstop hl
  | true =>
    have hcall : exec (tryCatch (call .closeBrowser) fun _ => pure ()) (b, past) =
        (.ok (), { b with calls := b.calls + 1 }, past ++ [.called .closeBrowser]) := by
      rw [exec_tryCatch, exec_call]
      cases b.faults b.calls .closeBrowser with
      | none | some message => rfl
    have hnext (done : Bool) :
        Resource.browser.next (b.holds .browser) ⟨.closeBrowser, done⟩ = some false := by
      unfold holds
      rw [hl]
      rfl
    have hminds := minds_call past (r := .browser) rfl rfl (hnext _)
    obtain ⟨A, y, hexec, hminds', hnothing, hpage⟩ := exists_exec_stop
      (b := note .browser false { b with calls := b.calls + 1 })
      (past ++ [.called .closeBrowser]) hstop rfl
    rw [if_pos rfl, exec_bind, hcall]
    exact ⟨_, y, hexec, hminds.trans hminds', hnothing, hpage⟩

/-- What a browser comes to when its surface is opened. -/
theorem start_cases (past : List Occurrence) (hstop : ∀ n, b.faults n .stopDriver = none)
    (hnothing : b.hasPage = false → b.HoldsNothing) :
    (b.hasPage = true ∧ exec start (b, past) = (.ok (), b, past)) ∨
    (b.hasPage = false ∧ ∃ y, exec start (b, past) = (.ok (), y) ∧
      Minds (b, past) (b.openingCalls.map (⟨·, true⟩)) y ∧ y.1.hasPage = true) ∨
    (b.hasPage = false ∧ ∃ f A y, exec start (b, past) = (.error f, y) ∧ f.kind = .refused ∧
      Minds (b, past) A y ∧ y.1.HoldsNothing ∧ y.1.hasPage = false) := by
  have hstate : exec state (b, past) = (.ok b, b, past) := rfl
  unfold start
  rw [exec_bind, hstate]
  dsimp only
  cases hp : b.hasPage with
  | true => exact .inl ⟨rfl, rfl⟩
  | false =>
    have hopen : (!false) = true := rfl
    obtain ⟨A, y, hminds, hpage, ⟨hok, rfl⟩ | ⟨f, herror⟩⟩ :=
      makes_makePage past (hnothing hp)
    · refine .inr (.inl ⟨rfl, ?_⟩)
      have hshown (record : Record) : Minds y []
          ({ y.1 with hasPage := true, routed := true }, y.2 ++ [.logged record]) :=
        ⟨⟨rfl, rfl, rfl, [.logged record], rfl, rfl⟩, fun r => by cases r <;> rfl⟩
      rw [if_pos hopen, exec_bind, exec_tryCatch, hok]
      exact ⟨_, rfl, List.append_nil (b.openingCalls.map _) ▸ hminds.trans (hshown _), rfl⟩
    · refine .inr (.inr ⟨rfl, ?_⟩)
      obtain ⟨c, past'⟩ := y
      have hstop' : ∀ n, c.faults n .stopDriver = none := by
        rw [hminds.faults]
        exact hstop
      obtain ⟨A', z, hexec, hminds', hnothing', hpage'⟩ := exists_exec_close past' hstop'
      rw [if_pos hopen, exec_bind, exec_tryCatch, herror]
      dsimp only
      rw [exec_bind, hexec]
      exact ⟨_, _, z, rfl, rfl, hminds.trans hminds', hnothing', hpage'.trans (hpage.trans hp)⟩

end BrowserAct

namespace Browser

open BrowserAct

/-! ## Surfaces -/

/-- What is done with the surface of a browser. -/
inductive Use where
  /-- It is opened. -/
  | start
  /-- It is closed. -/
  | close
deriving DecidableEq, Repr

/-- What a browser does. -/
def Use.act : Use → BrowserAct ρ Unit
  | .start => Browser.start
  | .close => Browser.close

/-- A browser after its surface was opened and closed some times, with what has happened. -/
def used (b : Browser ρ) (uses : List Use) : Browser ρ × List Occurrence :=
  uses.foldl (fun x use => (exec use.act x).2) (b, [])

/-- The last use. -/
theorem used_concat (b : Browser ρ) (uses : List Use) (use : Use) :
    b.used (uses ++ [use]) = (exec use.act (b.used uses)).2 := List.foldl_append ..

/-- A new browser. -/
structure IsNew (b : Browser ρ) : Prop where
  /-- There is no page. -/
  noPage : b.hasPage = false
  /-- Nothing is held. -/
  nothing : b.HoldsNothing

/-- The surface is closed only when there is no page. -/
def ClosesNoPage (b : Browser ρ) (uses : List Use) : Prop :=
  ∀ before after, uses = before ++ .close :: after → (b.used before).1.hasPage = false

/-- By some attempts a page was made last in a browser that was not closed since. -/
def MakesPage (A : List Attempt) : Prop :=
  ∃ before kind options rest, A = before ++ ⟨.launch kind options, true⟩ :: rest ∧
    ⟨.newPage, true⟩ ∈ rest ∧ ∀ a ∈ rest, a.call.resource? ≠ some .browser

/-- The page belongs to a browser that is held with its driver. -/
structure ShowsSurface (b : Browser ρ) (A : List Attempt) : Prop where
  /-- There is a page. -/
  hasPage : b.hasPage = true
  /-- The driver and the browser are held. -/
  holds : ∀ r, b.holds r = true
  /-- The page was made in that browser. -/
  makes : MakesPage A

/-- Every request about the page is refused, and nothing happens. -/
structure Refuses (x : Browser ρ × List Occurrence) : Prop where
  /-- A request that the browser is asked. -/
  ask (h : Host ρ) (r : Request) :
    (Browser.host h).ask r x.1 = (some (.failed notStarted), x.1, [])
  /-- A request that is met without waiting. -/
  request (h : Host ρ) (r : Request) :
    exec (request h r) x = (.ok (.failed notStarted), x)
  /-- A state of the surface that is to be shown. -/
  render (s : SurfaceState) : exec (render s) x = (.error notStarted, x)

/-- A browser without a page refuses every request about it. -/
theorem refuses_of_noPage {x : Browser ρ × List Occurrence} (hx : x.1.hasPage = false) :
    Refuses x := by
  obtain ⟨b, past⟩ := x
  have hx : b.hasPage = false := hx
  have hrequire (past : List Occurrence) :
      exec requirePage (b, past) = (.error notStarted, b, past) := by
    have hstate : exec state (b, past) = (.ok b, b, past) := rfl
    unfold requirePage
    rw [exec_bind, hstate]
    dsimp only
    rw [hx]
    rfl
  have htake (h : Host ρ) (r : Request) (past : List Occurrence) :
      exec (take h r) (b, past) = (.error notStarted, b, past) := by
    unfold take
    rw [exec_bind, hrequire]
  refine ⟨fun h r => ?_, fun h r => ?_, fun s => ?_⟩
  · rw [ask_eq, htake]
    rfl
  · unfold request
    rw [exec_tryCatch, exec_bind, htake]
    rfl
  · unfold render
    rw [exec_bind, hrequire]

/-- Where a new browser has got, with what has happened: it holds nothing without a page. -/
structure IsReached (b : Browser ρ) (x : Browser ρ × List Occurrence) : Prop where
  /-- It has obtained what it holds, and given back the rest. -/
  minds : Minds (b, []) (b.attempts x.2) x
  /-- Without a page nothing is held. -/
  nothing : x.1.hasPage = false → x.1.HoldsNothing

namespace IsReached

variable {b : Browser ρ} {x y : Browser ρ × List Occurrence} {A : List Attempt}

/-- The attempts that were made. -/
theorem of_minds (h : Minds (b, []) A y) (hnothing : y.1.hasPage = false → y.1.HoldsNothing) :
    IsReached b y ∧ b.attempts y.2 = A := by
  obtain ⟨os, hos, hA⟩ := h.past
  have hattempts : b.attempts y.2 = A := by
    rw [hos]
    exact hA
  exact ⟨⟨hattempts.symm ▸ h, hnothing⟩, hattempts⟩

/-- The driver can be stopped. -/
theorem stops (h : IsReached b x) (hstop : ∀ n, b.faults n .stopDriver = none) (n : Nat) :
    x.1.faults n .stopDriver = none := by
  rw [h.minds.faults]
  exact hstop n

/-- Its surface is opened: there is a page then, which is shown if it was shown where there was one
before; or nothing is held and there is no page. -/
theorem start (h : IsReached b x) (hstop : ∀ n, b.faults n .stopDriver = none) :
    (∃ y, exec Browser.start x = (.ok (), y) ∧ IsReached b y ∧ y.1.hasPage = true ∧
        ((x.1.hasPage = true → x.1.ShowsSurface (b.attempts x.2)) →
          y.1.ShowsSurface (b.attempts y.2))) ∨
      ∃ f y, exec Browser.start x = (.error f, y) ∧ IsReached b y ∧ f.kind = .refused ∧
        y.1.HoldsNothing ∧ y.1.hasPage = false := by
  obtain ⟨hp, hexec⟩ | ⟨hp, y, hexec, hminds, hpage⟩ |
    ⟨-, f, A, y, hexec, hf, hminds, hnothing, hpage⟩ :=
      start_cases x.2 (h.stops hstop) h.nothing
  · exact .inl ⟨x, hexec, h, hp, fun hshows => hshows hp⟩
  · have hreached := of_minds (h.minds.trans hminds) fun hp => by simp [hpage] at hp
    obtain ⟨hreached, hattempts⟩ := hreached
    refine .inl ⟨y, hexec, hreached, hpage, fun _ => ⟨hpage, fun r => ?_, ?_⟩⟩
    · have hheld := hminds.held r
      have hopened : r.heldAfter false (x.1.openingCalls.map (⟨·, true⟩)) = some true := by
        cases r <;> rfl
      rw [h.nothing hp r, hopened] at hheld
      exact (Option.some.inj hheld).symm
    · rw [hattempts]
      exact ⟨b.attempts x.2 ++ [⟨.startDriver, true⟩], _, _, _, by
        rw [List.append_assoc]; rfl, .tail _ (.head _), by simp [PageCall.resource?]⟩
  · exact .inr ⟨f, y, hexec, (of_minds (h.minds.trans hminds) fun _ => hnothing).1, hf, hnothing,
      hpage⟩

/-- Its surface is closed: nothing is held then, and a page stays. -/
theorem close (h : IsReached b x) (hstop : ∀ n, b.faults n .stopDriver = none) :
    ∃ y, exec Browser.close x = (.ok (), y) ∧ IsReached b y ∧ y.1.HoldsNothing ∧
      y.1.hasPage = x.1.hasPage := by
  obtain ⟨A, y, hexec, hminds, hnothing, hpage⟩ := exists_exec_close x.2 (h.stops hstop)
  exact ⟨y, hexec, (of_minds (h.minds.trans hminds) fun _ => hnothing).1, hnothing, hpage⟩

end IsReached

variable {b : Browser ρ}

/-- Where a new browser gets when its surface is opened and closed. -/
theorem isReached_used (hnew : b.IsNew) (hstop : ∀ n, b.faults n .stopDriver = none)
    (uses : List Use) : IsReached b (b.used uses) := by
  induction uses using List.reverseRecOn with
  | nil => exact ⟨.refl _, fun _ => hnew.nothing⟩
  | append_singleton uses use ih =>
    rw [used_concat]
    cases use with
    | start =>
      obtain ⟨y, hexec, hy, -⟩ | ⟨f, y, hexec, hy, -⟩ := ih.start hstop
      · exact hexec ▸ hy
      · exact hexec ▸ hy
    | close =>
      obtain ⟨y, hexec, hy, -⟩ := ih.close hstop
      exact hexec ▸ hy

/-- A page is shown as long as the surface is closed only when there is none. -/
theorem showsSurface_used (hnew : b.IsNew) (hstop : ∀ n, b.faults n .stopDriver = none)
    {uses : List Use} (hcloses : b.ClosesNoPage uses) (hpage : (b.used uses).1.hasPage = true) :
    (b.used uses).1.ShowsSurface (b.attempts (b.used uses).2) := by
  induction uses using List.reverseRecOn with
  | nil => exact absurd hpage (by simp [used, hnew.noPage])
  | append_singleton uses use ih =>
    have hreached := isReached_used hnew hstop uses
    have hbefore : b.ClosesNoPage uses := fun before after h =>
      hcloses before (after ++ [use]) (by rw [h, List.append_assoc]; rfl)
    rw [used_concat] at hpage ⊢
    cases use with
    | start =>
      obtain ⟨y, hexec, -, -, hshows⟩ | ⟨f, y, hexec, -, -, -, hnone⟩ := hreached.start hstop
      · exact hexec ▸ hshows (ih hbefore)
      · have hnone' : (exec Use.start.act (b.used uses)).2.1.hasPage = false := hexec ▸ hnone
        exact absurd hpage (by simp [hnone'])
    | close =>
      obtain ⟨y, hexec, -, -, hsame⟩ := hreached.close hstop
      have hnone : (b.used uses).1.hasPage = false := hcloses uses [] rfl
      have hnone' : (exec Use.close.act (b.used uses)).2.1.hasPage = false :=
        hexec ▸ hsame.trans hnone
      exact absurd hpage (by simp [hnone'])

/-- **A browser keeps custody of what it obtains.** The surface of a new browser is opened and
closed any number of times in any order, and any calls may fail but that by which the driver is
stopped. At every moment the driver and the browser were given back as often as they were obtained,
but for what is held: nothing is obtained while it is held, and nothing is given back that is not.
When the surface cannot be opened that is a refusal, nothing is held, and every request about the
page is refused. It can always be closed, and then nothing is held. As long as it is closed only
when there is no page, every request is refused after it was closed, and once it is opened its page
belongs to a browser that is held with its driver. -/
theorem keeps_custody (hnew : b.IsNew) (hstop : ∀ n, b.faults n .stopDriver = none)
    (uses : List Use) :
    let x := b.used uses
    let A := b.attempts x.2
    (∀ r : Resource, r.heldAfter false A = some (x.1.holds r) ∧
      A.countP r.obtains = A.countP r.givesBack + (x.1.holds r).toNat) ∧
    (∀ f y, exec Browser.start x = (.error f, y) →
      f.kind = .refused ∧ y.1.HoldsNothing ∧ Refuses y) ∧
    (∃ y, exec Browser.close x = (.ok (), y) ∧ y.1.HoldsNothing ∧
      (b.ClosesNoPage (uses ++ [.close]) → Refuses y)) ∧
    (b.ClosesNoPage uses → ∀ y, exec Browser.start x = (.ok (), y) →
      y.1.ShowsSurface (b.attempts y.2)) := by
  intro x A
  have hreached := isReached_used hnew hstop uses
  refine ⟨fun r => ?_, ?_, ?_, ?_⟩
  · have hheld : r.heldAfter false A = some (x.1.holds r) := hnew.nothing r ▸ hreached.minds.held r
    exact ⟨hheld, by simpa using r.countP_obtains hheld⟩
  · intro f y hstart
    obtain ⟨z, hexec, -⟩ | ⟨g, z, hexec, -, hrefused, hnothing, hnone⟩ := hreached.start hstop
    · cases hstart.symm.trans hexec
    · cases hstart.symm.trans hexec
      exact ⟨hrefused, hnothing, refuses_of_noPage hnone⟩
  · obtain ⟨y, hexec, -, hnothing, hsame⟩ := hreached.close hstop
    exact ⟨y, hexec, hnothing, fun hcloses =>
      refuses_of_noPage (hsame.trans (hcloses uses [] rfl))⟩
  · intro hcloses y hstart
    obtain ⟨z, hexec, -, -, hshows⟩ | ⟨f, z, hexec, -⟩ := hreached.start hstop
    · cases hstart.symm.trans hexec
      exact hshows (showsSurface_used hnew hstop hcloses)
    · cases hstart.symm.trans hexec

/-- The surface cannot be opened the first time, is closed, and is then opened. -/
theorem keeps_custody_reopened :
    let faults (n : Nat) (c : PageCall) : Option Text :=
      match c with
      | .goto _ | .closeBrowser => if n < 9 then some "failed" else none
      | _ => none
    let b : Browser Unit := { settings := {}, label := "Go", faults := faults, responder := () }
    let uses : List Use := [.start, .close]
    let y := exec Browser.start (b.used uses)
    b.IsNew ∧ (∀ n, b.faults n .stopDriver = none) ∧ b.ClosesNoPage uses ∧
      y.1.isOk = true ∧ y.2.1.ShowsSurface (b.attempts y.2.2) := by
  intro faults b uses y
  have hnew : b.IsNew := ⟨rfl, fun r => by cases r <;> rfl⟩
  have hstop (n : Nat) : b.faults n .stopDriver = none := rfl
  have hnone : ∀ k < 2, (b.used (uses.take k)).1.hasPage = false := by decide +kernel
  have hcloses : b.ClosesNoPage uses := by
    intro before after h
    have hlength : before.length < 2 := by
      have hsplit : 2 = before.length + (after.length + 1) :=
        (congrArg List.length h).trans List.length_append
      omega
    have htaken := hnone before.length hlength
    rwa [h, List.take_left] at htaken
  have hok : y.1.isOk = true := by decide +kernel
  obtain ⟨-, -, -, hshows⟩ := keeps_custody hnew hstop uses
  refine ⟨hnew, hstop, hcloses, hok, ?_⟩
  have hstart : exec Browser.start (b.used uses) = y := rfl
  generalize y = out at hok hstart ⊢
  obtain ⟨f | u, y⟩ := out
  · cases hok
  · exact hshows hcloses y hstart

/-- A surface that was opened and closed is opened once more: nothing happens, and the page that is
still there belongs to no browser. -/
theorem not_every_opened_surface_shown :
    ¬ ∀ (b : Browser Unit) (uses : List Use), b.IsNew → (∀ n, b.faults n .stopDriver = none) →
      ∀ y, exec Browser.start (b.used uses) = (.ok (), y) → y.1.holds .browser = true := by
  intro hall
  have hheld := hall { settings := {}, label := "Go", faults := fun _ _ => none, responder := () }
    [.start, .close] ⟨rfl, fun r => by cases r <;> rfl⟩ (fun _ => rfl) _ rfl
  cases hheld

end Browser

end PushButton
