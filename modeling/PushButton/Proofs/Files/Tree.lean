import PushButton.Files.Tree

/-!
# What stays in place in a file system

Following a path needs directories only. So a path that leads somewhere leads to the same place
after any change that takes no directory away: a directory is made where nothing is, and a file
appears or disappears where no directory is. No operation moves the working directory, or opens or
closes a directory.
-/

namespace PushButton

namespace Files

variable {fs fs' : Files}

/-- Elsewhere the entries stay when everything is taken from a location. -/
theorem find?_entries_erase {l m : Location} (hm : m ≠ l) :
    (fs.erase l).entries.find? (·.1 = m) = fs.entries.find? (·.1 = m) := by
  unfold erase
  rw [List.find?_filter]
  congr 1
  funext x
  by_cases hx : x.1 = m
  · simp [hx, hm]
  · simp [hx]

/-- What is at a location after an entry was put at one that is not the root. -/
theorem at?_put {l : Location} (hl : l ≠ []) (e : Entry) (m : Location) :
    (fs.put l e).at? m = if m = l then some e else fs.at? m := by
  by_cases hm : m = l
  · subst hm
    simp [at?, put, hl]
  · have hput : (fs.put l e).entries = (l, e) :: (fs.erase l).entries := rfl
    have hhead : ¬ l = m := fun h => hm h.symm
    unfold at?
    rw [if_neg hm, hput, List.find?_cons_of_neg (by simpa using hhead), find?_entries_erase hm]

/-- What is at a location after everything was taken from one that is not the root. -/
theorem at?_erase {l : Location} (hl : l ≠ []) (m : Location) :
    (fs.erase l).at? m = if m = l then none else fs.at? m := by
  by_cases hm : m = l
  · subst hm
    simp [at?, erase, hl]
  · unfold at?
    rw [if_neg hm, find?_entries_erase hm]

/-- The root is a directory. -/
theorem at?_root (fs : Files) : fs.at? [] = some .directory := rfl

/-- A location that is no directory is not the root. -/
theorem ne_root {l : Location} (h : fs.at? l ≠ some .directory) : l ≠ [] :=
  fun hl => h (hl ▸ at?_root fs)

/-- The working directory and the directories that may not be written are the same. -/
structure SameGround (fs fs' : Files) : Prop where
  /-- The working directory is the same. -/
  home : fs'.home = fs.home
  /-- The directories that may not be written are the same. -/
  closed : fs'.closed = fs.closed

/-- A file system has its own ground. -/
theorem SameGround.refl (fs : Files) : SameGround fs fs := ⟨rfl, rfl⟩

/-- What has the same ground twice has the same. -/
theorem SameGround.trans {fs'' : Files} (h : SameGround fs fs') (h' : SameGround fs' fs'') :
    SameGround fs fs'' := ⟨h'.home.trans h.home, h'.closed.trans h.closed⟩

/-- New things can be made at the same locations. -/
theorem SameGround.admits (h : SameGround fs fs') (l : Location) : fs'.admits l = fs.admits l := by
  unfold Files.admits
  rw [h.closed]

/-- Every directory of a file system is one of another, on the same ground. -/
structure KeepsDirectories (fs fs' : Files) : Prop extends SameGround fs fs' where
  /-- A directory is still one. -/
  directory {l : Location} : fs.at? l = some .directory → fs'.at? l = some .directory

/-- A file system keeps its own directories. -/
theorem KeepsDirectories.refl (fs : Files) : KeepsDirectories fs fs := ⟨.refl fs, id⟩

/-- What is kept twice is kept. -/
theorem KeepsDirectories.trans {fs'' : Files} (h : KeepsDirectories fs fs')
    (h' : KeepsDirectories fs' fs'') : KeepsDirectories fs fs'' :=
  ⟨h.toSameGround.trans h'.toSameGround, fun hl => h'.directory (h.directory hl)⟩

/-- An entry that is new where no directory was takes no directory away. -/
theorem KeepsDirectories.of_at? {l : Location} {e : Entry} (hl : fs.at? l ≠ some .directory)
    (hground : SameGround fs fs') (hat : ∀ m, fs'.at? m = if m = l then some e else fs.at? m) :
    KeepsDirectories fs fs' := by
  refine ⟨hground, fun {m} hm => ?_⟩
  have hne : m ≠ l := fun h => hl (h ▸ hm)
  rw [hat, if_neg hne, hm]

/-- An entry put where no directory is takes no directory away. -/
theorem KeepsDirectories.put {l : Location} (hl : fs.at? l ≠ some .directory) (e : Entry) :
    KeepsDirectories fs (fs.put l e) := .of_at? hl ⟨rfl, rfl⟩ (at?_put (ne_root hl) e)

/-- Names that lead somewhere lead to the same location. -/
theorem KeepsDirectories.walk (h : KeepsDirectories fs fs') {l m : Location} {names : List Text}
    (hwalk : fs.walk l names = .ok m) : fs'.walk l names = .ok m := by
  induction names generalizing l with
  | nil => exact hwalk
  | cons name rest ih =>
    rw [Files.walk] at hwalk ⊢
    split at hwalk
    · next hdir =>
      rw [h.directory hdir]
      exact ih hwalk
    · cases hwalk
    · cases hwalk

/-- A path that leads somewhere leads to the same location. -/
theorem KeepsDirectories.locate (h : KeepsDirectories fs fs') {p : Path} {l : Location}
    (hp : fs.locate p = .ok l) : fs'.locate p = .ok l := by
  unfold Files.locate at hp ⊢
  rw [h.home]
  exact h.walk hp

/-- A directory is at the end of a path exactly when the path leads to the location of one. -/
theorem hasDirectory_iff {p : Path} :
    fs.hasDirectory p = true ↔ ∃ l, fs.locate p = .ok l ∧ fs.at? l = some .directory := by
  unfold hasDirectory entry?
  cases fs.locate p with
  | error f => simp
  | ok l => simp

/-- A path with a directory at its end has one there as long as directories are kept. -/
theorem KeepsDirectories.hasDirectory (h : KeepsDirectories fs fs') {p : Path}
    (hp : fs.hasDirectory p = true) : fs'.hasDirectory p = true := by
  obtain ⟨l, hl, hdir⟩ := hasDirectory_iff.mp hp
  exact hasDirectory_iff.mpr ⟨l, h.locate hl, h.directory hdir⟩

/-- A directory at the end of a path may be written, or may not, as before when directories are
kept. -/
theorem KeepsDirectories.isClosed (h : KeepsDirectories fs fs') {p : Path}
    (hp : fs.hasDirectory p = true) : fs'.isClosed p = fs.isClosed p := by
  obtain ⟨l, hl, -⟩ := hasDirectory_iff.mp hp
  unfold Files.isClosed
  rw [hl, h.locate hl, h.closed]

/-- Names behind others are followed from where the others lead. -/
theorem walk_append {l m : Location} {names : List Text} (h : fs.walk l names = .ok m)
    (more : List Text) : fs.walk l (names ++ more) = fs.walk m more := by
  induction names generalizing l with
  | nil =>
    cases h
    rfl
  | cons name rest ih =>
    rw [List.cons_append]
    rw [walk] at h ⊢
    split at h
    · exact ih h
    · cases h
    · cases h

/-- A path leads somewhere when a directory is around its place. -/
theorem exists_locate_of_parent {p : Path} (h : fs.hasDirectory p.parent = true) :
    ∃ l, fs.locate p = .ok l := by
  obtain ⟨m, hm, hdir⟩ := hasDirectory_iff.mp h
  unfold locate Path.parent at *
  by_cases hnil : p.names = []
  · refine ⟨m, ?_⟩
    simpa [hnil] using hm
  · obtain ⟨name, hsplit⟩ : ∃ name, p.names.dropLast ++ [name] = p.names :=
      ⟨_, List.dropLast_concat_getLast hnil⟩
    refine ⟨if name = ".." then m.dropLast else m ++ [name], ?_⟩
    rw [← hsplit, walk_append hm, walk, hdir]
    simp [walk]

/-- A file can be written where a path leads to a file, or to nothing in a directory that may be
written. -/
theorem writable_eq_ok_iff {p : Path} {l : Location} : fs.writable p = .ok l ↔
    fs.locate p = .ok l ∧ fs.at? l ≠ some .directory ∧ (fs.at? l = none → fs.admits l = true) := by
  unfold writable
  cases fs.locate p with
  | error f => simp
  | ok k =>
    simp only [Except.ok.injEq]
    split
    · next hdir => exact ⟨nofun, by rintro ⟨rfl, hfree, -⟩; exact absurd hdir hfree⟩
    · next bytes hfile =>
      refine ⟨?_, fun h => by rw [h.1]⟩
      rintro ⟨⟩
      exact ⟨rfl, by simp [hfile], by simp [hfile]⟩
    · next hnone =>
      split
      · next hadmits =>
        refine ⟨?_, fun h => by rw [h.1]⟩
        rintro ⟨⟩
        exact ⟨rfl, by simp [hnone], fun _ => hadmits⟩
      · next hrefused =>
        exact ⟨nofun, by rintro ⟨rfl, -, hadmits⟩; exact absurd (hadmits hnone) hrefused⟩

/-- What can be written is put where the path leads. -/
theorem write_eq_ok_iff {p : Path} {bytes : Bytes} : fs.write p bytes = .ok fs' ↔
    ∃ l, fs.writable p = .ok l ∧ fs.put l (.file bytes) = fs' := by
  unfold write
  cases fs.writable p with
  | error f => simp
  | ok l => simp

/-- A path where a file can be written is one where a file can be written as long as directories and
what is at its end are kept. -/
theorem KeepsDirectories.writable (h : KeepsDirectories fs fs') {p : Path} {l : Location}
    (hl : fs.writable p = .ok l) (hsame : fs'.at? l = fs.at? l) : fs'.writable p = .ok l := by
  obtain ⟨hplace, hfree, hadmits⟩ := writable_eq_ok_iff.mp hl
  exact writable_eq_ok_iff.mpr ⟨h.locate hplace, hsame ▸ hfree, by
    rw [hsame, h.admits]; exact hadmits⟩

/-- A directory that is made is there, and nothing is taken away. -/
theorem makeDirectory_eq_ok {p : Path} (h : fs.makeDirectory p = .ok fs') :
    fs'.hasDirectory p = true ∧ KeepsDirectories fs fs' := by
  unfold makeDirectory at h
  split at h
  · cases h
  · next l hl =>
    split at h
    · cases h
    · next hnone =>
      split at h
      · cases h
        have hl' : fs.at? l ≠ some .directory := by simp [hnone]
        have hkeeps := KeepsDirectories.put hl' .directory
        refine ⟨hasDirectory_iff.mpr ⟨l, hkeeps.locate hl, ?_⟩, hkeeps⟩
        rw [at?_put (ne_root hl'), if_pos rfl]
      · cases h

/-- A refusal that is passed over means that a directory is there. -/
theorem hasDirectory_of_else {p : Path} {e : FileError}
    (h : (if fs.hasDirectory p then .ok () else .error e : Except FileError Unit) = .ok ()) :
    fs.hasDirectory p = true := by
  split at h
  · assumption
  · cases h

/-- A directory that is made with the directories around it is there, and nothing is taken away. The
induction is on the number of directories that may be missing. -/
theorem makeDirectoriesUpTo_eq_ok {p : Path} {n : Nat}
    (h : fs.makeDirectoriesUpTo p n = (.ok (), fs')) :
    fs'.hasDirectory p = true ∧ KeepsDirectories fs fs' := by
  induction n generalizing p fs' with
  | zero => cases h
  | succ n ih =>
    rw [makeDirectoriesUpTo] at h
    split at h
    · next made hmade =>
      cases h
      exact makeDirectory_eq_ok hmade
    · split at h
      · split at h
        · cases h
        · next around haround =>
          obtain ⟨-, hkeeps⟩ := ih haround
          split at h
          · next made hmade =>
            cases h
            obtain ⟨hdir, hmore⟩ := makeDirectory_eq_ok hmade
            exact ⟨hdir, hkeeps.trans hmore⟩
          · obtain ⟨hthere, rfl⟩ := Prod.mk.inj h
            exact ⟨hasDirectory_of_else hthere, hkeeps⟩
      · obtain ⟨hthere, rfl⟩ := Prod.mk.inj h
        exact ⟨hasDirectory_of_else hthere, .refl fs⟩

/-- A directory that is there need not be made. -/
theorem makeDirectories_of_hasDirectory {p : Path} (h : fs.hasDirectory p = true) :
    fs.makeDirectories p = (.ok (), fs) := by
  obtain ⟨l, hl, hdir⟩ := hasDirectory_iff.mp h
  have hthere : fs.makeDirectory p = .error (fault p .exists) := by
    rw [makeDirectory, hl]
    simp only [hdir]
  rw [makeDirectories, makeDirectoriesUpTo, hthere]
  simp [fault, h]

/-- The directory of a path is there or can be made, it may be written, and no directory is at the
place of the path itself. -/
def IsWritable (fs : Files) (p : Path) : Prop :=
  ∃ fs', fs.makeDirectories p.parent = (.ok (), fs') ∧ fs'.isClosed p.parent = false ∧
    fs'.hasDirectory p = false

end Files

end PushButton
