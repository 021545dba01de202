import PushButton.Storage.Basic
import PushButton.Host.Request
import PushButton.Workflow.Stored

/-!
# The stored workflow

The workflow is kept in the storage under a key of its own, in its stored form.
-/

namespace PushButton

/-- The record about a text that was stored. -/
def Storage.setRecord (key value : Text) : Record :=
  { level := .debug
    logger := "button_workflow.storage.local_storage"
    message := "storage set " ++ key.quoted ++ " (" ++ Text.ofNat value.length ++ " chars)" }

namespace Shelf

/-- A text put under a key, with the record about it. -/
def setLogged (s : Shelf) (key value : Text) : Except StorageError Unit × Shelf × List Record :=
  match s.set key value with
  | (.ok (), s) => (.ok (), s, [Storage.setRecord key value])
  | (.error e, s) => (.error e, s, [])

/-- The workflow under a key, where there is one. -/
def loadWorkflow (s : Shelf) (key : Text) : Except Failure (Option Workflow) :=
  match s.get? key with
  | .error e => .error e.failure
  | .ok none => .ok none
  | .ok (some t) =>
    match Workflow.parse t with
    | .error e => .error ⟨e.kind, e.message ("stored under " ++ key.quoted)⟩
    | .ok w => .ok (some w)

/-- A workflow put under a key, with the records about it. -/
def saveWorkflow (s : Shelf) (key : Text) (w : Workflow) :
    Except StorageError Unit × Shelf × List Record :=
  match s.setLogged key (w.dump none) with
  | (.ok (), s, records) =>
    let saved : Record :=
      { level := .info
        logger := "button_workflow.storage.config_store"
        message := "Workflow configuration saved (" ++ Text.ofNat w.actions.length ++
          " action(s)) under " ++ key.quoted }
    (.ok (), s, records ++ [saved])
  | (.error e, s, records) => (.error e, s, records)

end Shelf

end PushButton
