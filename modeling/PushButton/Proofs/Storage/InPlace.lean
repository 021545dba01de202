import PushButton.Proofs.Files.Growth
import PushButton.Proofs.Storage.Items

/-!
# A file of items that stays in its place

Where the directory of a file is there and may be written, and no directory is in the way, a storage
in the file finds the same items until others are written. Items that are not plain have no bytes,
and writing them leaves what is there. So every change of the storage either takes place or fails,
and which of the two it is depends on the items alone.
-/

namespace PushButton

namespace Storage

variable {items : StoredItems}

instance (items : StoredItems) : Decidable (ArePlain items) :=
  inferInstanceAs (Decidable (∀ item ∈ items, item.1.IsPlain ∧ item.2.IsPlain))

/-- Only a plain text has bytes between its quotes. -/
theorem isPlain_of_unencodable?_eq_none {t : Text} (h : unencodable? t = none) : t.IsPlain := by
  unfold unencodable? at h
  split at h
  · cases h
  · next hencode => exact Json.isPlain_of_quoted_full (Utf8.isPlain_of_encodeFrom hencode)

/-- Only plain items have bytes. -/
theorem arePlain_of_bytesOfItems {bytes : Bytes} (h : bytesOfItems items = .ok bytes) :
    ArePlain items := by
  unfold bytesOfItems at h
  split at h
  · cases h
  · next hnone =>
    have htexts := List.findSome?_eq_none_iff.mp hnone
    intro item hitem
    have hin (t : Text) (ht : t ∈ [item.1, item.2]) : t.IsPlain :=
      isPlain_of_unencodable?_eq_none (htexts t (List.mem_flatMap.mpr ⟨item, hitem, ht⟩))
    exact ⟨hin _ (by simp), hin _ (by simp)⟩

/-- Items with distinct keys in which a text was put are plain if the key, the text and the items
under other keys are. -/
theorem arePlain_put (hkeys : (Json.keys items).Nodup) {key value : Text} :
    ArePlain (Json.put key value items) ↔
      ArePlain (items.filter (·.1 ≠ key)) ∧ key.IsPlain ∧ value.IsPlain := by
  have hself := Json.mem_put_self key value items
  rw [← Json.filter_put key value items]
  constructor
  · intro h
    exact ⟨fun item hitem => h item (List.mem_filter.mp hitem).1, h _ hself⟩
  · rintro ⟨hothers, hplain⟩ item hitem
    by_cases hkey : item.1 = key
    · have hsame : item = (key, value) :=
        List.inj_on_of_nodup_map (Json.nodup_keys_put hkeys key value) hitem hself hkey
      rwa [hsame]
    · exact hothers item (List.mem_filter.mpr ⟨hitem, by simpa using hkey⟩)

end Storage

namespace Shelf

variable {fs : Files} {path : Path} {items : StoredItems}

/-- Replacing a file takes no directory away. -/
theorem keepsDirectories_replaceFile (fs : Files) (p : Path)
    (contents : Except StorageError Bytes) :
    Files.KeepsDirectories fs (replaceFile fs p contents).2 := by
  have hcases := replaces_replaceFile fs p contents
  generalize replaceFile fs p contents = out at hcases
  obtain ⟨result, fs'⟩ := out
  cases result with
  | error e => exact hcases.growsAlong.keepsDirectories
  | ok _ =>
    cases hcases with
    | replaced _ hmade _ _ hplace hground hput =>
      exact (Files.makeDirectoriesUpTo_eq_ok hmade).2.trans (.of_at? hplace hground hput)

/-- A path whose file was replaced can be written: no directory was in its place. -/
theorem isWritable_of_replaceFile {contents : Except StorageError Bytes} {fs' : Files}
    (h : replaceFile fs path contents = (.ok (), fs')) : fs.IsWritable path := by
  have hcases := replaces_replaceFile fs path contents
  rw [h] at hcases
  cases hcases with
  | @replaced _ made _ l _ hmade hopen hl hplace _ _ =>
    refine ⟨made, hmade, hopen, ?_⟩
    unfold Files.hasDirectory Files.entry?
    rw [hl]
    exact decide_eq_false hplace

/-- Only plain items are written to a file. -/
theorem arePlain_of_replaceFile {fs' : Files}
    (h : replaceFile fs path (Storage.bytesOfItems items) = (.ok (), fs')) :
    Storage.ArePlain items := by
  have hcases := replaces_replaceFile fs path (Storage.bytesOfItems items)
  rw [h] at hcases
  cases hcases with
  | replaced hbytes => exact Storage.arePlain_of_bytesOfItems hbytes

/-- **What was written is found.** Items with distinct keys are found in a storage whenever writing
them succeeded, whatever was there before. -/
theorem items_of_write {s s' : Shelf}
    (hkeys : ∀ path, s.storage = .file path → (Json.keys items).Nodup)
    (h : s.write items = (.ok (), s')) : s'.items = .ok items := by
  obtain ⟨storage, fs⟩ := s
  cases storage with
  | memory old =>
    cases h
    rfl
  | file path =>
    have hreplaced : replaceFile fs path (Storage.bytesOfItems items) = (.ok (), s'.files) := by
      cases h' : replaceFile fs path (Storage.bytesOfItems items) with
      | mk result fs' =>
        simp only [Shelf.write, h', Prod.mk.injEq] at h
        rw [h.1, ← h.2]
    obtain ⟨fs', hwrite, -, hholds⟩ := Storage.exists_write (isWritable_of_replaceFile hreplaced)
      (arePlain_of_replaceFile hreplaced) (hkeys path rfl)
    obtain rfl : s' = ⟨.file path, fs'⟩ := congrArg Prod.snd (h.symm.trans hwrite)
    exact hholds.items_eq

/-- A text that was put under a key is among the items. -/
theorem items_of_set {s s' : Shelf} {key value : Text} (h : s.set key value = (.ok (), s')) :
    ∃ items, s.items = .ok items ∧ s'.items = .ok (Json.put key value items) := by
  unfold Shelf.set at h
  cases hitems : s.items with
  | error e =>
    rw [hitems] at h
    cases h
  | ok items =>
    rw [hitems] at h
    refine ⟨items, rfl, items_of_write ?_ h⟩
    obtain ⟨storage, fs⟩ := s
    rintro path ⟨rfl⟩
    exact Json.nodup_keys_put (nodup_keys_of_items hitems) key value

/-- A text that was put under a key is found there, and other keys have the texts that they had. -/
theorem get?_of_set {s s' : Shelf} {key value : Text} (h : s.set key value = (.ok (), s'))
    (other : Text) : s'.get? other = if key = other then .ok (some value) else s.get? other := by
  obtain ⟨items, hitems, hitems'⟩ := items_of_set h
  rw [get?, get?, hitems', hitems, Except.map, Json.lookup_put]
  split
  · rfl
  · rfl

end Shelf

namespace Storage

variable {fs fs' : Files} {path : Path} {items : StoredItems}

/-- A file is in place for these items: its directory is there and may be written, no directory is
in the way, and a storage finds the items in it. -/
structure InPlace (fs : Files) (path : Path) (items : StoredItems) : Prop where
  /-- The directory of the file is there. -/
  directory : fs.hasDirectory path.parent = true
  /-- The directory of the file may be written. -/
  opened : fs.isClosed path.parent = false
  /-- No directory is at the end of the path. -/
  free : fs.hasDirectory path = false
  /-- The items are found. -/
  items : (⟨.file path, fs⟩ : Shelf).items = .ok items

/-- A file stays in place when directories are kept and the entry at the end of its path is. -/
theorem InPlace.of_entry (h : InPlace fs path items) (hkeeps : Files.KeepsDirectories fs fs')
    (hentry : fs'.entry? path = fs.entry? path) : InPlace fs' path items where
  directory := hkeeps.hasDirectory h.directory
  opened := by rw [hkeeps.isClosed h.directory]; exact h.opened
  free := by rw [Files.hasDirectory, hentry]; exact h.free
  items := by rw [Shelf.items_file, hentry, ← Shelf.items_file]; exact h.items

/-- A file in place can be written. -/
theorem InPlace.isWritable (h : InPlace fs path items) : fs.IsWritable path :=
  ⟨fs, Files.makeDirectories_of_hasDirectory h.directory, h.opened, h.free⟩

/-- **Items are written or left.** Writing items with distinct keys to a file in place succeeds
exactly when they are plain. Then they are found, and otherwise those that were there. -/
theorem InPlace.write (h : InPlace fs path items) {new : StoredItems}
    (hkeys : (Json.keys new).Nodup) :
    ∃ result fs', (⟨.file path, fs⟩ : Shelf).write new = (result, ⟨.file path, fs'⟩) ∧
      (result.isOk = true ↔ ArePlain new) ∧ Files.KeepsDirectories fs fs' ∧
      InPlace fs' path (if ArePlain new then new else items) := by
  have hkeeps := Shelf.keepsDirectories_replaceFile fs path (bytesOfItems new)
  have hdirectory := hkeeps.hasDirectory h.directory
  by_cases hplain : ArePlain new
  · obtain ⟨fs', hwrite, ⟨made, hmade, hopen, hfree⟩, hholds⟩ :=
      exists_write h.isWritable hplain hkeys
    have hfs' : (Shelf.replaceFile fs path (bytesOfItems new)).2 = fs' :=
      congrArg (fun out => out.2.files) hwrite
    rw [hfs'] at hkeeps hdirectory
    obtain rfl : fs' = made :=
      congrArg Prod.snd ((Files.makeDirectories_of_hasDirectory hdirectory).symm.trans hmade)
    refine ⟨.ok (), fs', hwrite, by simp [Except.isOk, Except.toBool, hplain], hkeeps, ?_⟩
    rw [if_pos hplain]
    exact ⟨hdirectory, hopen, hfree, hholds.items_eq⟩
  · -- items that are not plain have no bytes, so the file is not replaced
    have hcases := Shelf.replaces_replaceFile fs path (bytesOfItems new)
    have hwrite : (⟨.file path, fs⟩ : Shelf).write new =
        ((Shelf.replaceFile fs path (bytesOfItems new)).1,
          ⟨.file path, (Shelf.replaceFile fs path (bytesOfItems new)).2⟩) := rfl
    generalize Shelf.replaceFile fs path (bytesOfItems new) = out at hcases hwrite hkeeps
    obtain ⟨result, fs'⟩ := out
    cases result with
    | ok _ =>
      cases hcases with
      | replaced hbytes => exact absurd (arePlain_of_bytesOfItems hbytes) hplain
    | error e =>
      refine ⟨_, _, hwrite, by simp [Except.isOk, Except.toBool, hplain], hkeeps, ?_⟩
      rw [if_neg hplain]
      have hsame := hcases.growsAlong.at?_of_hasDirectory h.directory
      exact h.of_entry hkeeps (Files.entry?_congr hkeeps.home hsame path)

/-- A text that is put under a key of a file in place is found there if the items with it are plain,
and otherwise nothing has changed. -/
theorem InPlace.set (h : InPlace fs path items) (key value : Text) :
    ∃ result fs', (⟨.file path, fs⟩ : Shelf).set key value = (result, ⟨.file path, fs'⟩) ∧
      Files.KeepsDirectories fs fs' ∧
      InPlace fs' path (if ArePlain (Json.put key value items) then Json.put key value items
        else items) := by
  have hkeys := Json.nodup_keys_put (Shelf.nodup_keys_of_items h.items) key value
  obtain ⟨result, fs', hwrite, -, hkeeps, hplace⟩ := h.write hkeys
  refine ⟨result, fs', ?_, hkeeps, hplace⟩
  rw [Shelf.set, h.items]
  exact hwrite

/-- A key that is removed from a file in place is not found any more if the other items are plain,
and otherwise nothing has changed. -/
theorem InPlace.remove (h : InPlace fs path items) (key : Text) :
    ∃ result fs', (⟨.file path, fs⟩ : Shelf).remove key = (result, ⟨.file path, fs'⟩) ∧
      Files.KeepsDirectories fs fs' ∧
      InPlace fs' path (if ArePlain (items.filter (·.1 ≠ key)) then items.filter (·.1 ≠ key)
        else items) := by
  by_cases hthere : (Json.lookup key items).isSome = true
  · have hkeys : (Json.keys (items.filter (·.1 ≠ key))).Nodup :=
      (List.filter_sublist.map _).nodup (Shelf.nodup_keys_of_items h.items)
    obtain ⟨result, fs', hwrite, -, hkeeps, hplace⟩ := h.write hkeys
    refine ⟨result, fs', ?_, hkeeps, hplace⟩
    rw [Shelf.remove, h.items]
    dsimp only
    rw [if_pos hthere]
    exact hwrite
  · have hsame : items.filter (·.1 ≠ key) = items :=
      Json.filter_of_lookup_eq_none (by simpa using hthere)
    refine ⟨.ok (), fs, ?_, .refl fs, ?_⟩
    · rw [Shelf.remove, h.items]
      dsimp only
      rw [if_neg hthere]
    · rw [hsame, ite_self]
      exact h

end Storage

end PushButton
