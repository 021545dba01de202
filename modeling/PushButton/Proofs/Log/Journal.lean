import PushButton.Proofs.Files.Growth
import PushButton.Proofs.Log.Record
import PushButton.Proofs.Storage.Replacing

/-!
# The file of the log

Records come to the end of the file of the log, and what the file held stays in front of them. Other
changes of the file system spare the file: directories that are made elsewhere, files that are
written elsewhere, and a storage that is kept elsewhere.
-/

namespace PushButton

namespace Files

variable {fs fs' fs'' : Files} {l : Location}

/-- The bytes of the file at a location, and none where no file is. -/
def contents (fs : Files) (l : Location) : Bytes :=
  match fs.at? l with
  | some (.file bytes) => bytes
  | _ => []

/-- Records come to the end of the file of the log, where one can be written. -/
theorem appendRecords_eq {p : Path} (hl : fs.writable p = .ok l) (time : Moment)
    {rs : List Record} (hrs : rs ≠ []) :
    fs.appendRecords p time rs =
      fs.put l (.file (fs.contents l ++ rs.flatMap (recordBytes time))) := by
  have hbefore : (fs.read p).toOption.getD [] = fs.contents l := by
    unfold read contents
    rw [(writable_eq_ok_iff.mp hl).1]
    dsimp only
    cases fs.at? l with
    | none => rfl
    | some e => cases e <;> rfl
  unfold appendRecords
  rw [if_neg (by simpa using hrs)]
  dsimp only
  rw [hbefore, write_eq_ok_iff.mpr ⟨l, hl, rfl⟩]
  rfl

/-- Records in the log are found in its file. -/
theorem at?_appendRecords {p : Path} (hl : fs.writable p = .ok l) (time : Moment)
    (rs : List Record) :
    (fs.appendRecords p time rs).at? l =
      if rs.isEmpty then fs.at? l
      else some (.file (fs.contents l ++ rs.flatMap (recordBytes time))) := by
  cases rs with
  | nil => rfl
  | cons r rs =>
    have hfree := (writable_eq_ok_iff.mp hl).2.1
    rw [appendRecords_eq hl time (List.cons_ne_nil r rs), at?_put (ne_root hfree), if_pos rfl]
    rfl

/-- Further records can be written behind records. -/
theorem writable_appendRecords {p : Path} (hl : fs.writable p = .ok l) (time : Moment)
    (rs : List Record) : (fs.appendRecords p time rs).writable p = .ok l := by
  cases rs with
  | nil => exact hl
  | cons r rs =>
    obtain ⟨hplace, hfree, -⟩ := writable_eq_ok_iff.mp hl
    rw [appendRecords_eq hl time (List.cons_ne_nil r rs)]
    refine writable_eq_ok_iff.mpr ⟨(KeepsDirectories.put hfree _).locate hplace, ?_, ?_⟩
    · simp [at?_put (ne_root hfree)]
    · simp [at?_put (ne_root hfree)]

/-- The file of the log holds what it held, and then the records. -/
theorem contents_appendRecords {p : Path} (hl : fs.writable p = .ok l) (time : Moment)
    (rs : List Record) :
    (fs.appendRecords p time rs).contents l =
      fs.contents l ++ rs.flatMap (recordBytes time) := by
  unfold contents
  rw [at?_appendRecords hl]
  cases rs with
  | nil => simp
  | cons r rs => rfl

/-! ## Changes that spare a file -/

/-- A change spares a file: it takes no directory away, and changes nothing where the file is or may
come to be. -/
structure Spares (l : Location) (fs fs' : Files) : Prop extends KeepsDirectories fs fs' where
  /-- The same is at the location. -/
  same : fs'.at? l = fs.at? l

/-- Nothing is changed. -/
theorem Spares.refl (l : Location) (fs : Files) : Spares l fs fs := ⟨.refl fs, rfl⟩

/-- One change after another. -/
theorem Spares.trans (h : Spares l fs fs') (h' : Spares l fs' fs'') : Spares l fs fs'' :=
  ⟨h.toKeepsDirectories.trans h'.toKeepsDirectories, h'.same.trans h.same⟩

/-- Directories are made along a path from the root that does not step back, and does not pass the
location. -/
theorem Spares.of_growsAlong {p : Path} (h : fs.GrowsAlong p fs') (habsolute : p.absolute = true)
    (hnames : (".." : Text) ∉ p.names) (hl : ¬ l <+: p.names) : Spares l fs fs' := by
  refine ⟨h.keepsDirectories, ?_⟩
  obtain hsame | ⟨hnone, hmade⟩ := h.entry l
  · exact hsame
  · obtain ⟨names, hway, hwalk⟩ := h.onWay hnone hmade
    have hplace := eq_append_of_walk (fun hmem => hnames (hway.subset hmem)) hwalk
    rw [start, if_pos habsolute, List.nil_append] at hplace
    exact absurd (hplace ▸ hway) hl

/-- Something comes to be at another location, where no directory was. -/
theorem Spares.of_at? {k : Location} {e : Entry} (hk : fs.at? k ≠ some .directory) (hne : k ≠ l)
    (hground : fs.SameGround fs') (hat : ∀ m, fs'.at? m = if m = k then some e else fs.at? m) :
    Spares l fs fs' :=
  ⟨.of_at? hk hground hat, by rw [hat, if_neg hne.symm]⟩

/-- A file is written at another location. -/
theorem spares_write {p : Path} {bytes : Bytes} (hwrite : fs.write p bytes = .ok fs')
    (hp : ∀ k, fs.locate p = .ok k → k ≠ l) : Spares l fs fs' := by
  obtain ⟨k, hk, rfl⟩ := write_eq_ok_iff.mp hwrite
  obtain ⟨hplace, hfree, -⟩ := writable_eq_ok_iff.mp hk
  exact .of_at? hfree (hp k hplace) ⟨rfl, rfl⟩ (at?_put (ne_root hfree) _)

end Files

namespace Shelf

variable {s s' : Shelf} {l : Location}

/-- The storage is kept in a file at another location, in a directory that is there. -/
def IsApart (s : Shelf) (l : Location) : Prop :=
  ∃ path, s.storage = .file path ∧ s.files.hasDirectory path.parent = true ∧
    s.files.locate path ≠ .ok l

/-- A change of a storage spares a file. -/
structure Spares (l : Location) (s s' : Shelf) : Prop where
  /-- The items are kept in the same place. -/
  storage : s'.storage = s.storage
  /-- The file is spared. -/
  files : s.files.Spares l s'.files

/-- Nothing is changed. -/
theorem Spares.refl (l : Location) (s : Shelf) : s.Spares l s := ⟨rfl, .refl l s.files⟩

/-- One change after another. -/
theorem Spares.trans {s'' : Shelf} (h : s.Spares l s') (h' : s'.Spares l s'') : s.Spares l s'' :=
  ⟨h'.storage.trans h.storage, h.files.trans h'.files⟩

/-- A storage that spares a file stays apart from it. -/
theorem IsApart.of_spares (h : s.IsApart l) (hspares : s.Spares l s') : s'.IsApart l := by
  obtain ⟨path, hstorage, hparent, hne⟩ := h
  obtain ⟨k, hk⟩ := Files.exists_locate_of_parent hparent
  refine ⟨path, hspares.storage.trans hstorage, hspares.files.hasDirectory hparent, ?_⟩
  rwa [hspares.files.locate hk, ← hk]

/-- Replacing the items spares the files at other locations. -/
theorem IsApart.spares_write (h : s.IsApart l) (items : StoredItems) :
    s.Spares l (s.write items).2 := by
  obtain ⟨path, hstorage, hparent, hne⟩ := h
  unfold write
  rw [hstorage]
  dsimp only
  have hcases := replaces_replaceFile s.files path (Storage.bytesOfItems items)
  generalize replaceFile s.files path (Storage.bytesOfItems items) = out at hcases
  refine ⟨hstorage.symm, ?_⟩
  obtain ⟨result, fs'⟩ := out
  cases result with
  | error e =>
    have hgrows := hcases.growsAlong
    exact ⟨hgrows.keepsDirectories, hgrows.at?_of_hasDirectory hparent l⟩
  | ok _ =>
    cases hcases with
    | replaced _ hmade _ hk hfree hground hput =>
      have hthere := Files.makeDirectories_of_hasDirectory hparent
      obtain rfl := congrArg Prod.snd (hthere.symm.trans hmade)
      exact .of_at? hfree (fun hsame => hne (hsame ▸ hk)) hground hput

/-- Putting a text spares the files at other locations. -/
theorem IsApart.spares_set (h : s.IsApart l) (key value : Text) :
    s.Spares l (s.set key value).2 := by
  unfold set
  split
  · exact .refl l s
  · exact h.spares_write _

/-- Removing a key spares the files at other locations. -/
theorem IsApart.spares_remove (h : s.IsApart l) (key : Text) : s.Spares l (s.remove key).2 := by
  unfold remove
  split
  · exact .refl l s
  · split
    · exact h.spares_write _
    · exact .refl l s

end Shelf

end PushButton
