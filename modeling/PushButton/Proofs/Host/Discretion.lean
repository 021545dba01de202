import PushButton.Proofs.Host.Conduct
import PushButton.Proofs.Run.Observers

/-!
# Hosts that are discreet

A host may print, make records and call a page, but it tells no observer of the surface about a
part of it. That holds for the terminal, for a host that follows a script, and for a console or a
browser in front of a discreet host.
-/

namespace PushButton

variable {σ ρ : Type}

/-- Nothing in a list of occurrences tells an observer about a part of the surface. -/
def AreSilent (os : List Occurrence) : Prop := ∀ o ∈ os, o.IsSilent

/-- A host that tells no observer of the surface anything. -/
class Host.IsDiscreet (h : Host σ) : Prop where
  /-- It takes a request silently. -/
  ask (r : Request) (s : σ) : AreSilent (h.ask r s).2.2
  /-- It settles a request silently. -/
  settle (r : Request) (s : σ) : AreSilent (h.settle r s).2.2
  /-- It gives up a request silently. -/
  abandon (r : Request) (s : σ) : AreSilent (h.abandon r s).2

namespace AreSilent

/-- Nothing is silent. -/
theorem nil : AreSilent [] := nofun

/-- One silent thing. -/
theorem one {o : Occurrence} (ho : o.IsSilent) : AreSilent [o] := by
  intro o' ho'
  rwa [List.mem_singleton.mp ho']

/-- Silent things after others. -/
theorem append {os os' : List Occurrence} (h : AreSilent os) (h' : AreSilent os') :
    AreSilent (os ++ os') := fun o ho => (List.mem_append.mp ho).elim (h o) (h' o)

/-- A text that is printed. -/
theorem printed (t : Text) : AreSilent [.printed t] := one fun _ => rfl

/-- A record that is made. -/
theorem logged (r : Record) : AreSilent [.logged r] := one fun _ => rfl

end AreSilent

instance : HostScript.host.IsDiscreet where
  ask r s := by
    have hasked : AreSilent [.asked r] := .one fun _ => rfl
    unfold HostScript.host
    dsimp only
    split
    · exact hasked
    · exact hasked
  settle r s := .nil
  abandon r s := .nil

/-- The terminal prints and makes records. -/
theorem Terminal.areSilent_reply (r : Request) (t : Terminal) : AreSilent (reply r t).2.2 := by
  unfold reply
  cases r with
  | alert message =>
    dsimp only
    split
    · exact .printed _
    · exact .printed _
  | prompt message =>
    dsimp only
    split
    · exact .printed _
    · exact .printed _
  | reload => exact .logged _
  | close => exact .nil

instance : Terminal.host.IsDiscreet where
  ask := Terminal.areSilent_reply
  settle := Terminal.areSilent_reply
  abandon _ _ := .nil

/-- A host is discreet when it keeps to what is silent. -/
theorem Host.isDiscreet_iff {h : Host σ} : h.IsDiscreet ↔ h.KeepsTo Occurrence.IsSilent :=
  ⟨fun hd => ⟨hd.ask, hd.settle, hd.abandon⟩, fun hk => ⟨hk.ask, hk.settle, hk.abandon⟩⟩

instance {h : Host σ} [hd : h.IsDiscreet] : h.onConsole.IsDiscreet :=
  have := Host.isDiscreet_iff.mp hd
  Host.isDiscreet_iff.mpr inferInstance

instance {h : Host ρ} [hd : h.IsDiscreet] : (Browser.host h).IsDiscreet :=
  have := Host.isDiscreet_iff.mp hd
  Host.isDiscreet_iff.mpr
    (BrowserAct.keepsTo_host (fun _ _ => rfl) fun _ _ _ => rfl)

end PushButton
