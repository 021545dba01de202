import PushButton.Proofs.Storage.InPlace
import PushButton.Proofs.Storage.OrderedMap

/-!
# Texts laid over a storage

Texts that are put into a storage one after the other come to lie over what it held: every one of
them either takes its place among the items or leaves them as they are. A file must be where its
path leads all the time for this, which a path that steps back behind a missing directory may not
be.
-/

namespace PushButton

namespace OrderedMap

/-- The map with texts put under keys, one after the other. -/
def overlay (m : OrderedMap) (texts : StoredItems) : OrderedMap :=
  texts.foldl (fun m x => m.set x.1 x.2) m

/-- Texts are put after other ones. -/
theorem overlay_append (m : OrderedMap) (texts more : StoredItems) :
    m.overlay (texts ++ more) = (m.overlay texts).overlay more := List.foldl_append

/-- The keys that were there keep their places in front of the new ones. -/
theorem keys_prefix_overlay (m : OrderedMap) (texts : StoredItems) :
    m.keys <+: (m.overlay texts).keys := by
  induction texts generalizing m with
  | nil => exact List.prefix_refl _
  | cons x rest ih =>
    refine List.IsPrefix.trans ?_ (ih (m.set x.1 x.2))
    rw [keys_set]
    split
    · exact List.prefix_refl _
    · exact List.prefix_append _ _

/-- Under a key is the text that was put under it last, and what was there if none was. -/
theorem get?_overlay (m : OrderedMap) (texts : StoredItems) (key : Text) :
    (m.overlay texts).get? key =
      ((texts.reverse.find? (·.1 = key)).map (·.2)).or (m.get? key) := by
  induction texts using List.reverseRecOn with
  | nil => rfl
  | append_singleton texts x ih =>
    rw [overlay_append]
    change ((m.overlay texts).set x.1 x.2).get? key = _
    rw [get?_set, List.reverse_append, List.reverse_singleton, List.singleton_append,
      List.find?_cons]
    by_cases hkey : x.1 = key
    · simp [hkey]
    · simp [hkey, Ne.symm hkey, ih]

/-- Under a key under which no text was put is what was there. -/
theorem get?_overlay_of_forall_ne (m : OrderedMap) {texts : StoredItems} {key : Text}
    (h : ∀ x ∈ texts, x.1 ≠ key) : (m.overlay texts).get? key = m.get? key := by
  have hnone : texts.reverse.find? (·.1 = key) = none := by simpa using h
  rw [get?_overlay, hnone]
  rfl

end OrderedMap

namespace Shelf

/-- A storage that finds its file where it was: the directory of the file is there, or the path does
not step back behind a missing directory of a tree. -/
def IsSteady (s : Shelf) : Prop :=
  ∀ path, s.storage = .file path →
    s.files.hasDirectory path.parent = true ∨ s.files.IsTree ∧ s.files.IsSteady path

/-- A storage in memory is steady. -/
theorem isSteady_memory (items : StoredItems) (fs : Files) :
    (⟨.memory items, fs⟩ : Shelf).IsSteady := nofun

/-- A storage in a file whose directory is there is steady. -/
theorem isSteady_of_hasDirectory {path : Path} {fs : Files}
    (h : fs.hasDirectory path.parent = true) : (⟨.file path, fs⟩ : Shelf).IsSteady := by
  rintro _ ⟨rfl⟩
  exact .inl h

/-- Directories that are made around the place of a steady path leave what is at its end, and the
storage stays steady. -/
theorem IsSteady.growsAlong {path : Path} {fs fs' : Files}
    (h : (⟨.file path, fs⟩ : Shelf).IsSteady) (hgrows : fs.GrowsAlong path.parent fs') :
    (⟨.file path, fs'⟩ : Shelf).IsSteady ∧ fs'.entry? path = fs.entry? path := by
  obtain hdirectory | ⟨htree, hsteady⟩ := h path rfl
  · exact ⟨isSteady_of_hasDirectory (hgrows.keepsDirectories.hasDirectory hdirectory),
      Files.entry?_congr hgrows.home (hgrows.at?_of_hasDirectory hdirectory) path⟩
  · refine ⟨?_, hgrows.entry?_eq htree hsteady⟩
    rintro _ ⟨rfl⟩
    exact .inr ⟨hgrows.isTree htree, hsteady.grows hgrows.toGrows⟩

/-- Items that are written to a steady storage are there if the storage takes them, and the old ones
are there otherwise; the storage stays steady. -/
theorem IsSteady.write {s : Shelf} {items : StoredItems} (h : s.IsSteady)
    (hitems : s.items = .ok items) (new : StoredItems)
    (hkeys : ∀ path, s.storage = .file path → (Json.keys new).Nodup) :
    (s.write new).2.IsSteady ∧
      (s.write new).2.items = .ok (if (s.write new).1.isOk = true then new else items) := by
  obtain ⟨storage, fs⟩ := s
  cases storage with
  | memory old => exact ⟨isSteady_memory _ _, rfl⟩
  | file path =>
    have hwrite : (⟨.file path, fs⟩ : Shelf).write new =
        ((replaceFile fs path (Storage.bytesOfItems new)).1,
          ⟨.file path, (replaceFile fs path (Storage.bytesOfItems new)).2⟩) := rfl
    have hcases := replaces_replaceFile fs path (Storage.bytesOfItems new)
    generalize replaceFile fs path (Storage.bytesOfItems new) = out at hcases hwrite
    rw [hwrite]
    obtain ⟨result, fs'⟩ := out
    cases result with
    | error e =>
      obtain ⟨hsteady, hentry⟩ := h.growsAlong hcases.growsAlong
      refine ⟨hsteady, ?_⟩
      change (⟨.file path, fs'⟩ : Shelf).items = .ok items
      rw [items_file, hentry, ← items_file, hitems]
    | ok _ =>
      cases hcases with
      | replaced _ hmade _ _ hplace hground hput =>
        have hdirectory := (Files.makeDirectoriesUpTo_eq_ok hmade).1
        have hkeeps := Files.KeepsDirectories.of_at? hplace hground hput
        exact ⟨isSteady_of_hasDirectory (hkeeps.hasDirectory hdirectory),
          items_of_write hkeys hwrite⟩

/-- **A text is laid over the items.** A text that is put into a steady storage takes its place
among the items if the storage takes it, and leaves them as they are otherwise; the storage stays
steady. -/
theorem IsSteady.set {s : Shelf} {items : StoredItems} (h : s.IsSteady)
    (hitems : s.items = .ok items) (key value : Text) :
    (s.set key value).2.IsSteady ∧ (s.set key value).2.items =
      .ok (if (s.set key value).1.isOk = true then Json.put key value items else items) := by
  have hset : s.set key value = s.write (Json.put key value items) := by rw [Shelf.set, hitems]
  rw [hset]
  refine h.write hitems _ fun path hpath => ?_
  obtain ⟨storage, fs⟩ := s
  subst hpath
  exact Json.nodup_keys_put (nodup_keys_of_items hitems) key value

/-- When a steady storage does not take a text, every key has the text that it had. -/
theorem IsSteady.get?_of_refused {s s' : Shelf} {key value : Text} {e : StorageError}
    (h : s.IsSteady) (hset : s.set key value = (.error e, s')) (other : Text) :
    s'.get? other = s.get? other := by
  cases hitems : s.items with
  | error e' =>
    have hsame : s.set key value = (.error e', s) := by rw [Shelf.set, hitems]
    obtain rfl : s' = s := congrArg Prod.snd (hset.symm.trans hsame)
    rfl
  | ok items =>
    have hitems' := (h.set hitems key value).2
    rw [hset] at hitems'
    rw [get?, get?, hitems, hitems']
    rfl

end Shelf

end PushButton
