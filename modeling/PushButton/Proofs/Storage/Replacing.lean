import Mathlib.Data.List.Perm.Subperm
import PushButton.Proofs.Files.Growth
import PushButton.Storage.Basic

/-!
# A file that is replaced

A spare file takes a name that nothing has: more names are tried than there are entries. So writing
the spare file and taking it away again leave every directory in place, and afterwards the path
leads to the new contents.
-/

namespace PushButton

namespace Storage

/-- The names of spare files differ in their lengths. -/
theorem spareName_injective {j k : Nat} (h : spareName j = spareName k) : j = k := by
  have hlength := congrArg List.length h
  simpa [spareName] using hlength

/-- The location of a spare file is in its directory. -/
theorem exists_spareLocation_eq (fs : Files) (directory : Location) (stars n : Nat) :
    ∃ name, spareLocation fs directory stars n = directory ++ [name] := by
  induction n generalizing stars with
  | zero => exact ⟨_, rfl⟩
  | succ n ih =>
    rw [spareLocation]
    split
    · exact ih (stars + 1)
    · exact ⟨_, rfl⟩

/-- A spare file can be made when the directory of the path may be written. -/
theorem admits_spareLocation {fs : Files} {p : Path} {directory : Location}
    (h : fs.locate p.parent = .ok directory) (stars n : Nat) :
    fs.admits (spareLocation fs directory stars n) = !fs.isClosed p.parent := by
  obtain ⟨name, hname⟩ := exists_spareLocation_eq fs directory stars n
  simp [Files.admits, Files.isClosed, h, hname]

/-- Nothing is at the location of a spare file, or every name that was tried is taken. -/
theorem at?_spareLocation_or (fs : Files) (directory : Location) (stars n : Nat) :
    fs.at? (spareLocation fs directory stars n) = none ∨
      ∀ k ≤ n, fs.at? (directory ++ [spareName (stars + k)]) ≠ none := by
  induction n generalizing stars with
  | zero =>
    by_cases hfree : fs.at? (directory ++ [spareName stars]) = none
    · exact Or.inl hfree
    · right
      intro k hk
      obtain rfl : k = 0 := by omega
      exact hfree
  | succ n ih =>
    rw [spareLocation]
    split
    · next htaken =>
      rcases ih (stars + 1) with hfree | hall
      · exact Or.inl hfree
      · right
        intro k hk
        cases k with
        | zero => exact Option.isSome_iff_ne_none.mp htaken
        | succ k =>
          have h := hall k (by omega)
          rwa [show stars + 1 + k = stars + (k + 1) by omega] at h
    · next hfree => exact Or.inl (by simpa using hfree)

/-- What is at a location other than the root is among the entries. -/
theorem mem_entries_of_at? {fs : Files} {l : Location} (hl : l ≠ []) (h : fs.at? l ≠ none) :
    l ∈ fs.entries.map (·.1) := by
  have hroot : l.isEmpty = false := by simpa using hl
  rw [Files.at?, hroot, if_neg (by simp)] at h
  cases hfind : fs.entries.find? (·.1 = l) with
  | none => simp [hfind] at h
  | some x =>
    have hx := List.find?_some hfind
    exact List.mem_map.mpr ⟨x, List.mem_of_find?_eq_some hfind, by simpa using hx⟩

/-- Nothing is at the location of a spare file when as many names are tried as there are entries: if
all names were taken, there would be one entry more. -/
theorem at?_spareLocation (fs : Files) (directory : Location) (stars : Nat) :
    fs.at? (spareLocation fs directory stars fs.entries.length) = none := by
  rcases at?_spareLocation_or fs directory stars fs.entries.length with hfree | hall
  · exact hfree
  · exfalso
    let taken := (List.range (fs.entries.length + 1)).map fun k =>
      directory ++ [spareName (stars + k)]
    have hnodup : taken.Nodup := by
      refine List.Pairwise.map _ ?_ List.nodup_range
      intro j k hjk hname
      have hlength := spareName_injective (by simpa using hname)
      omega
    have hsubset : taken ⊆ fs.entries.map (·.1) := by
      intro l hl
      obtain ⟨k, hk, rfl⟩ := List.mem_map.mp hl
      exact mem_entries_of_at? (by simp) (hall k (by simpa [Nat.lt_succ_iff] using hk))
    have hlength := (hnodup.subperm hsubset).length_le
    simp only [taken, List.length_map, List.length_range] at hlength
    omega

end Storage

namespace Shelf

/-- What comes of replacing a file: its directory cannot be made; or the directory is made and
everything else is as it was, because the directory may not be written, or there are no new
contents, or a directory is in the way; or the file is there with the new contents. -/
inductive Replaces (fs : Files) (p : Path) (contents : Except StorageError Bytes) :
    Except StorageError Unit × Files → Prop
  /-- The directory cannot be made. -/
  | noDirectory {e : FileError} {fs' : Files} : fs.makeDirectories p.parent = (.error e, fs') →
      Replaces fs p contents (.error (.file e), fs')
  /-- The file was not replaced, and the spare file was removed. -/
  | refused {e : StorageError} {made fs' : Files} {l : Location} :
      made.isClosed p.parent = true ∨ contents = .error e ∨ made.at? l = some .directory →
      fs.makeDirectories p.parent = (.ok (), made) → made.locate p = .ok l →
      made.SameGround fs' → (∀ m, fs'.at? m = made.at? m) → Replaces fs p contents (.error e, fs')
  /-- The file was replaced. -/
  | replaced {bytes : Bytes} {made fs' : Files} {l : Location} : contents = .ok bytes →
      fs.makeDirectories p.parent = (.ok (), made) → made.isClosed p.parent = false →
      made.locate p = .ok l → made.at? l ≠ some .directory → made.SameGround fs' →
      (∀ m, fs'.at? m = if m = l then some (.file bytes) else made.at? m) →
      Replaces fs p contents (.ok (), fs')

/-- **A file is replaced or left as it is.** The spare file has a name that nothing has, so when it
is removed everything else is as it was. -/
theorem replaces_replaceFile (fs : Files) (p : Path) (contents : Except StorageError Bytes) :
    Replaces fs p contents (replaceFile fs p contents) := by
  unfold replaceFile
  split
  · next e fs' hmade => exact .noDirectory hmade
  · next made hmade =>
    obtain ⟨hparent, -⟩ := Files.makeDirectoriesUpTo_eq_ok hmade
    obtain ⟨directory, hdirectory, -⟩ := Files.hasDirectory_iff.mp hparent
    obtain ⟨target, htarget⟩ := Files.exists_locate_of_parent hparent
    simp only [hdirectory, htarget]
    have hfree := Storage.at?_spareLocation made directory 1
    have hadmits := Storage.admits_spareLocation hdirectory 1 made.entries.length
    obtain ⟨name, hname⟩ :=
      Storage.exists_spareLocation_eq made directory 1 made.entries.length
    generalize Storage.spareLocation made directory 1 made.entries.length = spare
      at hfree hadmits hname
    have hspare : spare ≠ [] := by simp [hname]
    have hremoved (fs₁ : Files) (hfs₁ : ∀ m, m ≠ spare → fs₁.at? m = made.at? m) (m : Location) :
        (fs₁.erase spare).at? m = made.at? m := by
      rw [Files.at?_erase hspare]
      split
      · next hm => rw [hm, hfree]
      · next hm => exact hfs₁ m hm
    have hopened (m : Location) (hm : m ≠ spare) :
        (made.put spare (.file [])).at? m = made.at? m := by
      rw [Files.at?_put hspare, if_neg hm]
    cases hclosed : made.isClosed p.parent with
    | true =>
      rw [if_neg (by simp [hadmits, hclosed])]
      exact .refused (.inl hclosed) hmade htarget (.refl made) fun _ => rfl
    | false =>
      rw [if_pos (by simp [hadmits, hclosed])]
      cases contents with
      | error e => exact .refused (.inr (.inl rfl)) hmade htarget ⟨rfl, rfl⟩ (hremoved _ hopened)
      | ok bytes =>
        have hwritten (m : Location) (hm : m ≠ spare) :
            ((made.put spare (.file [])).put spare (.file bytes)).at? m = made.at? m := by
          rw [Files.at?_put hspare, if_neg hm, hopened m hm]
        have hplace : ((made.put spare (.file [])).put spare (.file bytes)).at? target =
            some .directory ↔ made.at? target = some .directory := by
          by_cases hsame : target = spare
          · simp [hsame, hfree, Files.at?_put hspare]
          · rw [hwritten target hsame]
        dsimp only
        split
        · next htaken =>
          exact .refused (.inr (.inr (hplace.mp htaken))) hmade htarget ⟨rfl, rfl⟩
            (hremoved _ hwritten)
        · next hopen =>
          have htaken : made.at? target ≠ some .directory := fun h => hopen (hplace.mpr h)
          refine .replaced rfl hmade hclosed htarget htaken ⟨rfl, rfl⟩ fun m => ?_
          rw [Files.at?_put (Files.ne_root htaken)]
          split
          · rfl
          · exact hremoved _ hwritten m

/-- In a directory that may not be written nothing is replaced, and nothing has changed. -/
theorem replaceFile_of_isClosed {fs : Files} {p : Path} (hparent : fs.hasDirectory p.parent = true)
    (hclosed : fs.isClosed p.parent = true) (contents : Except StorageError Bytes) :
    ∃ e, replaceFile fs p contents = (.error (.file e), fs) ∧ e.fault = .forbidden := by
  obtain ⟨directory, hdirectory, -⟩ := Files.hasDirectory_iff.mp hparent
  obtain ⟨target, htarget⟩ := Files.exists_locate_of_parent hparent
  unfold replaceFile
  rw [Files.makeDirectories_of_hasDirectory hparent]
  simp only [hdirectory, htarget]
  rw [if_neg (by simp [Storage.admits_spareLocation hdirectory, hclosed])]
  exact ⟨_, rfl, rfl⟩

/-- Where a file is not replaced, directories may have been made around it, and nothing else has
changed. -/
theorem Replaces.growsAlong {fs fs' : Files} {p : Path} {contents : Except StorageError Bytes}
    {e : StorageError} (h : Replaces fs p contents (.error e, fs')) :
    fs.GrowsAlong p.parent fs' := by
  cases h with
  | noDirectory hmade => exact Files.makeDirectoriesUpTo_growsAlong hmade
  | refused _ hmade _ hground hsame =>
    exact (Files.makeDirectoriesUpTo_growsAlong hmade).of_same hground hsame

/-- **A file that is replaced.** At a path that can be written, the contents are replaced, the path
leads to a file with the new ones, and it can be written again. -/
theorem replaceFile_of_isWritable {fs : Files} {p : Path} (h : fs.IsWritable p) (bytes : Bytes) :
    ∃ fs', replaceFile fs p (.ok bytes) = (.ok (), fs') ∧ fs'.read p = .ok bytes ∧
      fs'.IsWritable p := by
  obtain ⟨made, hmade, hopen, hnodir⟩ := h
  have hcases := replaces_replaceFile fs p (.ok bytes)
  generalize replaceFile fs p (.ok bytes) = out at hcases
  cases hcases with
  | noDirectory hfails => cases hmade.symm.trans hfails
  | refused hwhy hmade' hl =>
    obtain rfl := congrArg Prod.snd (hmade.symm.trans hmade')
    rcases hwhy with hclosed | hnone | hdir
    · cases hopen.symm.trans hclosed
    · cases hnone
    · rw [Files.hasDirectory_iff.mpr ⟨_, hl, hdir⟩] at hnodir
      cases hnodir
  | @replaced bytes' made' fs' l hbytes hmade' hopen' hl hplace hground hput =>
    obtain rfl := Except.ok.inj hbytes
    have hkeeps := Files.KeepsDirectories.of_at? hplace hground hput
    have hlocate := hkeeps.locate hl
    have hthere : fs'.at? l = some (.file bytes) := by rw [hput, if_pos rfl]
    have hparent := (Files.makeDirectoriesUpTo_eq_ok hmade').1
    refine ⟨fs', rfl, ?_, fs',
      Files.makeDirectories_of_hasDirectory (hkeeps.hasDirectory hparent), ?_, ?_⟩
    · simp [Files.read, hlocate, hthere]
    · rw [hkeeps.isClosed hparent, hopen']
    · simp [Files.hasDirectory, Files.entry?, hlocate, hthere]

end Shelf

end PushButton
