import PushButton.Proofs.Storage.Calls
import PushButton.Proofs.Storage.InPlace

/-!
# Data that are not nested too deeply

Whatever stands in the way of a storage, its failure is about data or about the file system, unless
the data are nested too deeply. A storage writes an object of texts, which is not nested at all; so
where no file is nested too deeply, none ever is.
-/

namespace PushButton

/-- The data of a storage are nested too deeply to be read. -/
def StorageError.IsTooDeep (e : StorageError) : Prop := e.failure.kind = .tooDeep

/-- Any other failure of a storage is about data or about the file system. -/
theorem StorageError.isInvalid_or_isFile {e : StorageError} (h : ¬ e.IsTooDeep) :
    (e.failure.kind.isInvalid || e.failure.kind.isFile) = true := by
  unfold IsTooDeep at h
  cases e with
  | undecodable e | notObject path | unencodable e | file e => rfl
  | notJson path e =>
    unfold failure at h ⊢
    dsimp only at h ⊢
    split
    · rfl
    · next hsyntax =>
      rw [if_neg hsyntax] at h
      unfold Json.ParseError.kind at h ⊢
      dsimp only at h ⊢
      split
      · next hdepth => exact absurd (by rw [if_pos hdepth]) h
      · rfl

/-- A storage whose data are nested too deeply is at fault for nothing else. -/
theorem StorageError.IsTooDeep.not_isInvalid {e : StorageError} (h : e.IsTooDeep) :
    (e.failure.kind.isInvalid || e.failure.kind.isFile) = false := by
  unfold IsTooDeep at h
  rw [h]
  rfl

namespace Shelf

/-- What a storage keeps is nested too deeply. -/
def IsTooDeep (s : Shelf) : Prop := ∃ e, s.items = .error e ∧ e.IsTooDeep

/-- There is no file whose data are nested too deeply. -/
def IsShallow (s : Shelf) : Prop :=
  ∀ path l bytes e, s.files.at? l = some (.file bytes) →
    Storage.itemsOfBytes path bytes = .error e → ¬ e.IsTooDeep

/-- No file is nested too deeply when none among the entries is. -/
theorem isShallow_of_entries {s : Shelf} (h : ∀ x ∈ s.files.entries, ∀ bytes, x.2 = .file bytes →
    ∀ path e, Storage.itemsOfBytes path bytes = .error e → ¬ e.IsTooDeep) : s.IsShallow := by
  intro path l bytes e hl he
  unfold Files.at? at hl
  split at hl
  · cases hl
  · obtain ⟨x, hx, hfile⟩ := Option.map_eq_some_iff.mp hl
    exact h x (List.mem_of_find?_eq_some hx) bytes hfile path e he

/-- Where no file is nested too deeply, the storage is not. -/
theorem IsShallow.not_isTooDeep {s : Shelf} (h : s.IsShallow) : ¬ s.IsTooDeep := by
  rintro ⟨e, hitems, hdeep⟩
  obtain ⟨storage, fs⟩ := s
  cases storage with
  | memory items => cases hitems
  | file path =>
    rw [items_file] at hitems
    unfold Files.entry? at hitems
    split at hitems
    · cases hitems
    · next bytes hentry =>
      split at hentry
      · next l _ => exact h path l bytes e hentry hitems hdeep
      · cases hentry
    · cases hitems
      cases hdeep

/-- Nothing but what is kept can be nested too deeply when items are written. -/
theorem not_isTooDeep_of_write {s s' : Shelf} {items : StoredItems} {e : StorageError}
    (h : s.write items = (.error e, s')) : ¬ e.IsTooDeep := by
  obtain ⟨storage, fs⟩ := s
  have hbytes {e : StorageError} (he : Storage.bytesOfItems items = .error e) :
      ¬ e.IsTooDeep := by
    unfold Storage.bytesOfItems at he
    split at he
    · cases he
      nofun
    · cases hencode : Utf8.encode (Storage.toJson items).block with
      | ok bytes =>
        rw [hencode] at he
        cases he
      | error e' =>
        rw [hencode] at he
        cases he
        nofun
  cases storage with
  | memory old => cases h
  | file path =>
    unfold write replaceFile at h
    obtain ⟨hresult, -⟩ := Prod.mk.inj h
    split at hresult
    · cases hresult
      nofun
    · split at hresult
      · dsimp only at hresult
        split at hresult
        · split at hresult
          · next he =>
            cases hresult
            exact hbytes he
          · split at hresult
            · cases hresult
              nofun
            · cases hresult
        · cases hresult
          nofun
      · cases hresult
        nofun
      · cases hresult
        nofun

/-- Depth is at fault for a text that cannot be put only when what is kept is nested too deeply. -/
theorem items_of_isTooDeep_set {s : Shelf} {key value : Text} {e : StorageError}
    (h : (s.set key value).1 = .error e) (hdeep : e.IsTooDeep) : s.items = .error e := by
  unfold set at h
  cases hitems : s.items with
  | error e' =>
    rw [hitems] at h
    cases h
    rfl
  | ok items =>
    rw [hitems] at h
    dsimp only at h
    have hwrite : s.write (Json.put key value items) =
        (.error e, (s.write (Json.put key value items)).2) := Prod.ext h rfl
    exact absurd hdeep (not_isTooDeep_of_write hwrite)

end Shelf

namespace Storage

/-- Items with distinct keys are read from the bytes that they have. -/
theorem itemsOfBytes_bytesOfItems {items : StoredItems} (hkeys : (Json.keys items).Nodup)
    {bytes : Bytes} (h : bytesOfItems items = .ok bytes) (path : Path) :
    ∃ read, itemsOfBytes path bytes = .ok read := by
  obtain ⟨bytes', hbytes', htext⟩ := exists_bytesOfItems (arePlain_of_bytesOfItems h)
  obtain rfl := Except.ok.inj (hbytes'.symm.trans h)
  have hparse : Json.parse (toJson items).block = .ok (toJson items) :=
    Json.parse_write rfl (isExact_toJson hkeys 959)
  unfold itemsOfBytes itemsOfText
  rw [htext]
  dsimp only
  rw [Json.isBlank_of_parse hparse, hparse]
  exact ⟨_, rfl⟩

end Storage

namespace Shelf

/-- **No file becomes nested too deeply.** Putting a text writes a file that can be read, or none.
-/
theorem IsShallow.set {s : Shelf} (h : s.IsShallow) (key value : Text) :
    (s.set key value).2.IsShallow := by
  obtain ⟨storage, fs⟩ := s
  unfold Shelf.set
  cases storage with
  | memory old => exact h
  | file path =>
    split
    · exact h
    · next items hitems =>
      have hkeys := Json.nodup_keys_put (nodup_keys_of_items hitems) key value
      have hcases := replaces_replaceFile fs path
        (Storage.bytesOfItems (Json.put key value items))
      unfold write
      dsimp only
      generalize replaceFile fs path _ = out at hcases
      obtain ⟨result, fs'⟩ := out
      intro path' l bytes e hl he
      replace hl : fs'.at? l = some (.file bytes) := hl
      cases result with
      | error _ => exact h path' l bytes e (hcases.growsAlong.file hl) he
      | ok _ =>
        cases hcases with
        | @replaced new made _ target hnew hmade _ _ _ _ hput =>
          have hgrows := Files.makeDirectoriesUpTo_growsAlong hmade
          rw [hput] at hl
          split at hl
          · obtain rfl : new = bytes := by simpa using hl
            obtain ⟨read, hread⟩ := Storage.itemsOfBytes_bytesOfItems hkeys hnew path'
            cases hread.symm.trans he
          · exact h path' l bytes e (hgrows.file hl) he

end Shelf

end PushButton
