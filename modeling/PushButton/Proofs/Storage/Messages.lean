import PushButton.Proofs.Storage.Items
import PushButton.Proofs.Workflow.Messages

/-!
# Messages about a storage

Whatever is in the file of a storage, what is reported about it can be printed. A message tells
positions and numbers and names the fields of the format, and it repeats nothing of what the file
holds. So it is plain if the path of the file is.
-/

namespace PushButton

/-! ## Texts that hold no workflow -/

/-- The message about a text that is no JSON is plain. -/
@[simp] theorem Json.ParseError.isPlain_message (e : ParseError) : e.message.IsPlain := by
  have hfault : e.fault.message.IsPlain := by
    cases e.fault with
    | size digits => exact Text.isPlain_tooManyDigits _
    | depth isObject => cases isObject <;> simp [Fault.message]
    | _ => exact Text.isPlain_ofString _
  unfold message
  split
  · simp [hfault]
  · exact hfault

namespace StoredError

variable {t : Text} {e : StoredError}

/-- The message about a text that holds no workflow is plain. -/
theorem isPlain_message (h : Workflow.parse t = .error e) {source : Text}
    (hsource : source.IsPlain) : (e.message source).IsPlain := by
  unfold Workflow.parse at h
  split at h
  · next e' _ =>
    cases h
    by_cases hsyntax : e'.isSyntax = true
    · simp [message, hsyntax, hsource]
    · simp [message, hsyntax]
  · next v _ =>
    cases hv : Workflow.ofJson v with
    | ok w =>
      rw [hv] at h
      cases h
    | error r =>
      rw [hv] at h
      cases h
      exact Workflow.isPlain_message_of_ofJson hv hsource

/-- Data that are not nested too deeply are at fault. -/
theorem isInvalid_kind (h : e.kind ≠ .tooDeep) : e.kind.isInvalid = true := by
  cases e with
  | rejected r => rfl
  | json e =>
    unfold kind Json.ParseError.kind at h ⊢
    dsimp only at h ⊢
    split
    · next hdepth => exact absurd (if_pos hdepth) h
    · rfl

end StoredError

/-! ## The file of a storage -/

namespace Shelf

variable {fs : Files} {path : Path}

/-- The message about a file that holds no items is plain if its path is, and the data are at fault
unless they are nested too deeply. -/
theorem fault_of_items {e : StorageError} (hfree : fs.hasDirectory path = false)
    (hpath : path.shown.IsPlain) (h : (⟨.file path, fs⟩ : Shelf).items = .error e) :
    e.failure.message.IsPlain ∧ (e.failure.kind ≠ .tooDeep → e.failure.kind.isInvalid = true) := by
  rw [items_file] at h
  split at h
  · cases h
  · unfold Storage.itemsOfBytes Storage.itemsOfText at h
    split at h
    · next e' _ =>
      cases h
      exact ⟨e'.isPlain_message, fun _ => rfl⟩
    · split at h
      · cases h
      · split at h
        · next e' _ =>
          cases h
          unfold StorageError.failure
          dsimp only
          split
          · exact ⟨by simp [hpath], fun _ => rfl⟩
          · refine ⟨e'.isPlain_message, fun hdeep => ?_⟩
            exact StoredError.isInvalid_kind (e := .json e') hdeep
        · cases h
        · cases h
          exact ⟨by simp [StorageError.failure, hpath], fun _ => rfl⟩
  · next hentry =>
    rw [Files.hasDirectory, hentry] at hfree
    cases hfree

/-- **What is wrong with the stored workflow can be said.** The message about it is plain if the
path of the file is, and the data are at fault unless they are nested too deeply. -/
theorem fault_of_loadWorkflow {key : Text} {f : Failure} (hfree : fs.hasDirectory path = false)
    (hpath : path.shown.IsPlain)
    (h : (⟨.file path, fs⟩ : Shelf).loadWorkflow key = .error f) :
    f.message.IsPlain ∧ (f.kind ≠ .tooDeep → f.kind.isInvalid = true) := by
  unfold loadWorkflow get? at h
  cases hitems : (⟨.file path, fs⟩ : Shelf).items with
  | error e =>
    rw [hitems] at h
    cases h
    exact fault_of_items hfree hpath hitems
  | ok items =>
    rw [hitems, Except.map] at h
    split at h
    · next hlookup => cases hlookup
    · cases h
    · split at h
      · next e hparse =>
        cases h
        exact ⟨StoredError.isPlain_message hparse (by simp), StoredError.isInvalid_kind⟩
      · cases h

end Shelf

end PushButton
