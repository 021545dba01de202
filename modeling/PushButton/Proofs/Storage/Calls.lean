import PushButton.Proofs.Files.Growth
import PushButton.Proofs.Results
import PushButton.Proofs.Storage.Replacing

/-!
# What a call leaves behind

A call of a storage that fails leaves every file as it was: at most directories were made on the way
to the file of the storage. A call that succeeds changes no file but that one, and the spare file is
gone in every case. At the end of the path is what was there, unless the path steps back behind a
directory that had to be made.
-/

namespace PushButton

/-- A call of a storage. -/
inductive StorageCall where
  /-- The text under a key is looked up. -/
  | get (key : Text)
  /-- A text is put under a key. -/
  | set (key value : Text)
  /-- A key is removed. -/
  | remove (key : Text)
  /-- All keys are removed. -/
  | clear
  /-- The keys are listed, all at once or one after the other. -/
  | keys
  /-- The keys are counted. -/
  | size
  /-- It is asked whether a key is there. -/
  | contains (key : Text)
deriving DecidableEq, Repr

/-- What a call gives. -/
inductive StorageReply where
  /-- A text, or none. -/
  | text (t : Option Text)
  /-- The call was carried out. -/
  | done
  /-- Keys in order. -/
  | keys (ks : List Text)
  /-- A number of keys. -/
  | size (n : Nat)
  /-- Whether a key is there. -/
  | contains (b : Bool)
deriving DecidableEq, Repr

/-- A file system is a tree when every entry is in a directory and the working directory is there.
-/
theorem Files.IsTree.of_entries {fs : Files} (hhome : fs.at? fs.home = some .directory)
    (h : ∀ x ∈ fs.entries, fs.at? x.1.dropLast = some .directory) : fs.IsTree := by
  refine ⟨hhome, fun {l e} hl => ?_⟩
  by_cases hnil : l = []
  · rw [hnil]
    exact Files.at?_root fs
  · obtain ⟨x, hx, rfl⟩ := List.mem_map.mp (Storage.mem_entries_of_at? hnil (by rw [hl]; nofun))
    exact h x hx

namespace Shelf

/-- A storage is called. -/
def call (s : Shelf) : StorageCall → Except StorageError StorageReply × Shelf
  | .get key => ((s.get? key).map .text, s)
  | .set key value => ((s.set key value).1.map fun _ => .done, (s.set key value).2)
  | .remove key => ((s.remove key).1.map fun _ => .done, (s.remove key).2)
  | .clear => (s.clear.1.map fun _ => .done, s.clear.2)
  | .keys => (s.keys.map .keys, s)
  | .size => (s.size.map .size, s)
  | .contains key => ((s.contains key).map .contains, s)

/-! ## What a call leaves -/

/-- What a failed call leaves: the storage as it was, every file as it was, and the entry at the end
of its path, if the path does not step back behind a missing directory. -/
structure LeavesFiles (s s' : Shelf) : Prop where
  /-- The storage is the same. -/
  storage : s'.storage = s.storage
  /-- At most directories were made. -/
  grows : s.files.Grows s'.files
  /-- The same is at the end of the path of the storage. -/
  entry {path : Path} : s.storage = .file path → s.files.IsTree → s.files.IsSteady path →
    s'.files.entry? path = s.files.entry? path

/-- What a successful call leaves: no file that was not there, but for the file of the storage. -/
structure LeavesNoSpare (s s' : Shelf) : Prop where
  /-- What is not as it was is a directory that was made, or the file of the storage. -/
  entry (l : Location) : s'.files.at? l = s.files.at? l ∨
    s.files.at? l = none ∧ s'.files.at? l = some .directory ∨
    ∃ path bytes, s.storage = .file path ∧ s'.files.locate path = .ok l ∧
      s'.files.at? l = some (.file bytes)

/-- A call that changes nothing leaves every file. -/
theorem LeavesFiles.refl (s : Shelf) : s.LeavesFiles s :=
  ⟨rfl, .refl s.files, fun _ _ _ => rfl⟩

/-- A call that changes nothing leaves no spare file. -/
theorem LeavesNoSpare.refl (s : Shelf) : s.LeavesNoSpare s := ⟨fun _ => .inl rfl⟩

/-- How a call that may change the storage ends. -/
def Leaves (s : Shelf) (out : Except StorageError Unit × Shelf) : Prop :=
  match out.1 with
  | .error _ => s.LeavesFiles out.2
  | .ok () => s.LeavesNoSpare out.2

/-- Replacing the items leaves every file but that of the storage. -/
theorem leaves_write (s : Shelf) (items : StoredItems) : s.Leaves (s.write items) := by
  unfold write
  cases hstorage : s.storage with
  | memory old => exact ⟨fun _ => .inl rfl⟩
  | file path =>
    dsimp only
    have hcases := replaces_replaceFile s.files path (Storage.bytesOfItems items)
    generalize replaceFile s.files path (Storage.bytesOfItems items) = out at hcases
    obtain ⟨result, fs'⟩ := out
    cases result with
    | error e =>
      have hgrows := hcases.growsAlong
      refine ⟨hstorage.symm, hgrows.toGrows, fun {path'} hpath htree hsteady => ?_⟩
      obtain rfl := Storage.file.inj (hstorage.symm.trans hpath)
      exact hgrows.entry?_eq htree hsteady
    | ok _ =>
      cases hcases with
      | @replaced bytes made _ l _ hmade _ hl hplace hground hput =>
        have hgrows := Files.makeDirectoriesUpTo_growsAlong hmade
        have hkeeps := Files.KeepsDirectories.of_at? hplace hground hput
        refine ⟨fun m => ?_⟩
        by_cases hm : m = l
        · subst hm
          exact .inr (.inr ⟨path, bytes, hstorage, hkeeps.locate hl, by rw [hput, if_pos rfl]⟩)
        · rw [hput, if_neg hm]
          rcases hgrows.entry m with hsame | hmadeHere
          · exact .inl hsame
          · exact .inr (.inl hmadeHere)

/-- Putting a text leaves every file but that of the storage. -/
theorem leaves_set (s : Shelf) (key value : Text) : s.Leaves (s.set key value) := by
  unfold set
  split
  · exact .refl s
  · exact s.leaves_write _

/-- Removing a key leaves every file but that of the storage. -/
theorem leaves_remove (s : Shelf) (key : Text) : s.Leaves (s.remove key) := by
  unfold remove
  split
  · exact .refl s
  · split
    · exact s.leaves_write _
    · exact .refl s

/-- A call that changes the storage replies only when it was carried out. -/
theorem Leaves.call {s s' : Shelf} {out : Except StorageError Unit × Shelf} (h : s.Leaves out)
    {r : Except StorageError StorageReply} (hcall : (out.1.map fun _ => .done, out.2) = (r, s')) :
    (∀ e, r = .error e → s.LeavesFiles s') ∧ ∀ reply, r = .ok reply → s.LeavesNoSpare s' := by
  obtain ⟨result, after⟩ := out
  cases hcall
  cases result with
  | error e => exact ⟨fun _ _ => h, nofun⟩
  | ok _ => exact ⟨nofun, fun _ _ => h⟩

/-- **A failed call changes no file.** When a call of a storage fails, the storage and every file
are as they were; at most directories were made on the way to the file of the storage, and in a file
system that is a tree the same is at the end of its path, if the path does not step back behind a
missing directory. When a call succeeds, no file but that of the storage is new or has changed. -/
theorem call_leaves {s s' : Shelf} {c : StorageCall} {r : Except StorageError StorageReply}
    (hcall : s.call c = (r, s')) :
    (∀ e, r = .error e → s.LeavesFiles s') ∧ ∀ reply, r = .ok reply → s.LeavesNoSpare s' := by
  have hreads (r' : Except StorageError StorageReply) (hr : (r', s) = (r, s')) :
      (∀ e, r = .error e → s.LeavesFiles s') ∧ ∀ reply, r = .ok reply → s.LeavesNoSpare s' := by
    cases hr
    exact ⟨fun _ _ => .refl s, fun _ _ => .refl s⟩
  cases c with
  | get key => exact hreads _ hcall
  | set key value => exact (s.leaves_set key value).call hcall
  | remove key => exact (s.leaves_remove key).call hcall
  | clear => exact (s.leaves_write []).call hcall
  | keys => exact hreads _ hcall
  | size => exact hreads _ hcall
  | contains key => exact hreads _ hcall

/-- A text without bytes is not put into a file whose directory is missing: the directory is made,
and there is still no file. -/
theorem call_leaves_missing_file :
    let path : Path := ⟨false, ["data", "store.json"]⟩
    let s : Shelf := ⟨.file path, ⟨["home"], [(["home"], .directory)], []⟩⟩
    ∃ e s', s.call (.set "name" [.lone 0]) = (.error e, s') ∧ s.LeavesFiles s' ∧
      s.files.IsTree ∧ s.files.IsSteady path ∧ s'.files.entry? path = none := by
  intro path s
  have htree : s.files.IsTree := .of_entries rfl (by decide)
  have hsteady : s.files.IsSteady path := ⟨[], path.names, ["home"], rfl, rfl, by decide⟩
  have hfails : (s.call (.set "name" [.lone 0])).1.isOk = false := by decide +kernel
  obtain ⟨e, s', hcall⟩ := exists_error_of_not_isOk hfails
  have hleaves := (call_leaves hcall).1 e rfl
  exact ⟨e, s', hcall, hleaves, htree, hsteady, (hleaves.entry rfl htree hsteady).trans rfl⟩

/-- Not every failed call leaves what is at the end of the path of its storage. The path may step
back behind a directory that the call makes, and so come to lead to a file that was out of its
reach. -/
theorem not_every_failed_call_leaves_entry :
    ¬ ∀ (s s' : Shelf) (path : Path) (c : StorageCall) (e : StorageError),
      s.storage = .file path → s.files.IsTree → s.call c = (.error e, s') →
        s'.files.entry? path = s.files.entry? path := by
  intro h
  let path : Path := ⟨false, ["new", "..", "store.json"]⟩
  let fs : Files :=
    ⟨["home"], [(["home"], .directory), (["home", "store.json"], .file [123, 125])], []⟩
  have htree : fs.IsTree := .of_entries rfl (by decide)
  let s : Shelf := ⟨.file path, fs⟩
  have hfails : (s.call (.set "name" [.lone 0])).1.isOk = false := by decide +kernel
  have hthere : (s.call (.set "name" [.lone 0])).2.files.entry? path =
      some (.file [123, 125]) := by decide +kernel
  obtain ⟨e, s', hcall⟩ := exists_error_of_not_isOk hfails
  have hsame := h s s' path _ e rfl htree hcall
  rw [hcall] at hthere
  exact absurd (hthere.symm.trans hsame) (by decide)

end Shelf

end PushButton
