import Mathlib.Data.List.Induction
import PushButton.Proofs.Files.Tree

/-!
# Directories that are made

Making the directories around a place changes nothing else: what was there stays, and every new
directory is on the way along the path. A path that does not step back behind a missing directory
leads to the same entry before and after; one that does may come to lead to a file that was out of
its reach.
-/

namespace PushButton

/-- Pairs of dots are taken back. -/
theorem Path.notMem_collapse (names : List Text) : (".." : Text) ∉ collapse names := by
  have hfold : ∀ acc : List Text, (".." : Text) ∉ acc → (".." : Text) ∉ names.foldl
      (fun (acc : List Text) (n : Text) => if n = ".." then acc.dropLast else acc ++ [n]) acc := by
    induction names with
    | nil => exact fun _ h => h
    | cons name rest ih =>
      intro acc hacc
      refine ih _ ?_
      dsimp only
      split
      · exact fun hmem => hacc (List.dropLast_subset _ hmem)
      · next hname => simpa [hacc] using Ne.symm hname
  exact hfold [] (by simp)

namespace Files

variable {fs fs' : Files}

/-- Nothing has changed except that directories were made where nothing was. -/
structure Grows (fs fs' : Files) : Prop extends SameGround fs fs' where
  /-- What was at a location is still there, and where nothing was there may be a directory. -/
  entry (l : Location) : fs'.at? l = fs.at? l ∨ fs.at? l = none ∧ fs'.at? l = some .directory

/-- Nothing has changed at all. -/
theorem Grows.of_same (hground : SameGround fs fs') (hsame : ∀ l, fs'.at? l = fs.at? l) :
    fs.Grows fs' := ⟨hground, fun l => .inl (hsame l)⟩

/-- A file system grows by nothing. -/
theorem Grows.refl (fs : Files) : fs.Grows fs := .of_same (.refl fs) fun _ => rfl

/-- What grows twice grows. -/
theorem Grows.trans {fs'' : Files} (h : fs.Grows fs') (h' : fs'.Grows fs'') : fs.Grows fs'' := by
  refine ⟨h.toSameGround.trans h'.toSameGround, fun l => ?_⟩
  rcases h'.entry l with hsame' | ⟨hnone', hdir'⟩
  · rcases h.entry l with hsame | ⟨hnone, hdir⟩
    · exact .inl (hsame'.trans hsame)
    · exact .inr ⟨hnone, hsame'.trans hdir⟩
  · rcases h.entry l with hsame | ⟨-, hdir⟩
    · exact .inr ⟨hsame.symm.trans hnone', hdir'⟩
    · cases hnone'.symm.trans hdir

/-- Growing takes no directory away. -/
theorem Grows.keepsDirectories (h : fs.Grows fs') : KeepsDirectories fs fs' := by
  refine ⟨h.toSameGround, fun {l} hl => ?_⟩
  rcases h.entry l with hsame | ⟨hnone, -⟩
  · exact hsame.trans hl
  · cases hnone.symm.trans hl

/-- A file that is there after growing was there before. -/
theorem Grows.file (h : fs.Grows fs') {l : Location} {bytes : Bytes}
    (hl : fs'.at? l = some (.file bytes)) : fs.at? l = some (.file bytes) := by
  rcases h.entry l with hsame | ⟨-, hdir⟩
  · exact hsame.symm.trans hl
  · cases hdir.symm.trans hl

/-- The files that are there after growing are those that were there before. -/
theorem Grows.file_iff (h : fs.Grows fs') {l : Location} {bytes : Bytes} :
    fs'.at? l = some (.file bytes) ↔ fs.at? l = some (.file bytes) := by
  refine ⟨h.file, fun hl => ?_⟩
  rcases h.entry l with hsame | ⟨hnone, -⟩
  · exact hsame.trans hl
  · cases hnone.symm.trans hl

/-- What is at the end of a path stays when a directory is around its place and none comes to be at
it. -/
theorem Grows.entry?_eq (h : fs.Grows fs') {p : Path} (hparent : fs.hasDirectory p.parent = true)
    (hfree : fs'.hasDirectory p = false) : fs'.entry? p = fs.entry? p := by
  obtain ⟨l, hl⟩ := exists_locate_of_parent hparent
  have hl' := h.keepsDirectories.locate hl
  unfold entry?
  rw [hl, hl']
  rcases h.entry l with hsame | ⟨-, hdir⟩
  · exact hsame
  · rw [hasDirectory_iff.mpr ⟨l, hl', hdir⟩] at hfree
    cases hfree

/-- The location from which the names of a path lead. -/
def start (fs : Files) (p : Path) : Location := if p.absolute then [] else fs.home

/-- A path leads where its names lead. -/
theorem locate_eq_walk (fs : Files) (p : Path) : fs.locate p = fs.walk (fs.start p) p.names := rfl

/-- Growing leaves the location from which a path leads. -/
theorem Grows.start (h : fs.Grows fs') (p : Path) : fs'.start p = fs.start p := by
  unfold Files.start
  rw [h.home]

/-- Directories were made on the way along a path, and nothing else has changed. -/
structure GrowsAlong (fs : Files) (p : Path) (fs' : Files) : Prop extends Grows fs fs' where
  /-- The names of the path up to some point lead to the new directory. -/
  onWay {l : Location} : fs.at? l = none → fs'.at? l = some .directory →
    ∃ names, names <+: p.names ∧ fs'.walk (fs'.start p) names = .ok l

/-- Nothing was made along a path. -/
theorem GrowsAlong.refl (fs : Files) (p : Path) : fs.GrowsAlong p fs :=
  ⟨.refl fs, fun hnone hdir => by cases hnone.symm.trans hdir⟩

/-- Directories were made around the place of a path, and then one at the place. -/
theorem GrowsAlong.of_parent {fs'' : Files} {p : Path} (h : fs.GrowsAlong p.parent fs')
    (h' : fs'.GrowsAlong p fs'') : fs.GrowsAlong p fs'' := by
  refine ⟨h.toGrows.trans h'.toGrows, fun {l} hnone hdir => ?_⟩
  rcases h.entry l with hsame | ⟨-, hdir'⟩
  · exact h'.onWay (hsame.trans hnone) hdir
  · obtain ⟨names, hnames, hwalk⟩ := h.onWay hnone hdir'
    have hwalk' := h'.keepsDirectories.walk hwalk
    exact ⟨names, hnames.trans (List.dropLast_prefix _), h'.start p ▸ hwalk'⟩

/-- Directories were made on the way along a path, and after that nothing has changed. -/
theorem GrowsAlong.of_same {fs'' : Files} {p : Path} (h : fs.GrowsAlong p fs')
    (hground : SameGround fs' fs'') (hsame : ∀ l, fs''.at? l = fs'.at? l) :
    fs.GrowsAlong p fs'' := by
  have hmore : fs'.Grows fs'' := .of_same hground hsame
  refine ⟨h.toGrows.trans hmore, fun {l} hnone hdir => ?_⟩
  obtain ⟨names, hnames, hwalk⟩ := h.onWay hnone ((hsame l).symm.trans hdir)
  exact ⟨names, hnames, hmore.start p ▸ hmore.keepsDirectories.walk hwalk⟩

/-- Making a directory makes it at the end of the path. -/
theorem makeDirectory_growsAlong {p : Path} (h : fs.makeDirectory p = .ok fs') :
    fs.GrowsAlong p fs' := by
  unfold makeDirectory at h
  split at h
  · cases h
  · next l hl =>
    split at h
    · cases h
    · next hnone =>
      split at h
      · cases h
        have hplace : fs.at? l ≠ some .directory := by simp [hnone]
        have hput (m : Location) : (fs.put l .directory).at? m =
            if m = l then some .directory else fs.at? m := at?_put (ne_root hplace) .directory m
        refine ⟨⟨⟨rfl, rfl⟩, fun m => ?_⟩, fun {m} hnone' hdir => ?_⟩
        · rw [hput]
          by_cases hm : m = l
          · subst hm
            exact .inr ⟨hnone, if_pos rfl⟩
          · exact .inl (if_neg hm)
        · rw [hput] at hdir
          split at hdir
          · next hm =>
            subst hm
            exact ⟨p.names, List.prefix_refl _, (KeepsDirectories.put hplace .directory).locate hl⟩
          · cases hnone'.symm.trans hdir
      · cases h

/-- Making a directory with the directories around it makes directories along the path, also when
one of them is refused. The induction is on the number of directories that may be missing. -/
theorem makeDirectoriesUpTo_growsAlong {p : Path} {n : Nat} {result : Except FileError Unit}
    (h : fs.makeDirectoriesUpTo p n = (result, fs')) : fs.GrowsAlong p fs' := by
  induction n generalizing p fs' result with
  | zero =>
    cases h
    exact .refl fs p
  | succ n ih =>
    rw [makeDirectoriesUpTo] at h
    split at h
    · next made hmade =>
      cases h
      exact makeDirectory_growsAlong hmade
    · split at h
      · split at h
        · next around haround =>
          cases h
          exact (ih haround).of_parent (.refl _ p)
        · next around haround =>
          split at h
          · next made hmade =>
            cases h
            exact (ih haround).of_parent (makeDirectory_growsAlong hmade)
          · cases h
            exact (ih haround).of_parent (.refl _ p)
      · cases h
        exact .refl fs p

/-! ## Following names -/

/-- Where names lead, the first of them lead somewhere, and the others lead on from there. -/
theorem exists_walk_of_append {l m : Location} {names more : List Text}
    (h : fs.walk l (names ++ more) = .ok m) :
    ∃ k, fs.walk l names = .ok k ∧ fs.walk k more = .ok m := by
  induction names generalizing l with
  | nil => exact ⟨l, rfl, h⟩
  | cons name rest ih =>
    rw [List.cons_append, walk] at h
    rw [walk]
    split at h
    · exact ih h
    · cases h
    · cases h

/-- Names other than pairs of dots lead to the location below that they name. -/
theorem eq_append_of_walk {l m : Location} {names : List Text} (hnames : (".." : Text) ∉ names)
    (h : fs.walk l names = .ok m) : m = l ++ names := by
  induction names generalizing l with
  | nil =>
    cases h
    exact (List.append_nil _).symm
  | cons name rest ih =>
    have hname : name ≠ ".." := fun hname => hnames (by simp [hname])
    have hrest : (".." : Text) ∉ rest := fun hmem => hnames (List.mem_cons_of_mem _ hmem)
    rw [walk, if_neg hname] at h
    split at h
    · rw [ih hrest h, List.append_assoc, List.singleton_append]
    · cases h
    · cases h

/-- Names with further names behind them lead to a directory. -/
theorem directory_of_walk_cons {l m k : Location} {names more : List Text} {name : Text}
    (h : fs.walk l (names ++ name :: more) = .ok m) (hk : fs.walk l names = .ok k) :
    fs.at? k = some .directory := by
  rw [walk_append hk, walk] at h
  split at h
  · assumption
  · cases h
  · cases h

/-- Along a path with a directory at its end nothing is made. -/
theorem GrowsAlong.at?_of_hasDirectory {p : Path} (h : fs.GrowsAlong p fs')
    (hp : fs.hasDirectory p = true) (l : Location) : fs'.at? l = fs.at? l := by
  refine (h.entry l).resolve_right ?_
  rintro ⟨hnone, hdir⟩
  obtain ⟨names, ⟨more, hsplit⟩, hwalk⟩ := h.onWay hnone hdir
  obtain ⟨m, hm, hmdir⟩ := hasDirectory_iff.mp hp
  rw [locate_eq_walk, ← hsplit] at hm
  obtain ⟨k, hk, hmore⟩ := exists_walk_of_append hm
  obtain rfl : k = l := by
    have hk' := h.keepsDirectories.walk hk
    rw [← h.start] at hk'
    exact Except.ok.inj (hk'.symm.trans hwalk)
  cases more with
  | nil =>
    obtain rfl := Except.ok.inj hmore
    cases hnone.symm.trans hmdir
  | cons name more => cases hnone.symm.trans (directory_of_walk_cons hm hk)

/-- Without pairs of dots, the place of a path is in the place of its parent. -/
theorem dropLast_of_locate {p : Path} {l m : Location} (hdots : (".." : Text) ∉ p.names)
    (hnames : p.names ≠ []) (hl : fs.locate p = .ok l) (hm : fs.locate p.parent = .ok m) :
    l.dropLast = m := by
  rw [locate_eq_walk] at hl hm
  have hlplace := eq_append_of_walk hdots hl
  have hmplace : m = fs.start p ++ p.names.dropLast :=
    eq_append_of_walk (fun hmem => hdots (List.dropLast_subset _ hmem)) hm
  rw [hlplace, hmplace, List.dropLast_append_of_ne_nil hnames]

/-! ## Trees -/

/-- A file system in which everything is in a directory, and the working directory is there. -/
structure IsTree (fs : Files) : Prop where
  /-- The working directory is there. -/
  home : fs.at? fs.home = some .directory
  /-- What is there is in a directory. -/
  parent {l : Location} {e : Entry} : fs.at? l = some e → fs.at? l.dropLast = some .directory

/-- Above what is there are directories. -/
theorem IsTree.above (htree : fs.IsTree) {l : Location} {names : List Text} (hnames : names ≠ [])
    {e : Entry} (h : fs.at? (l ++ names) = some e) : fs.at? l = some .directory := by
  induction names using List.reverseRecOn generalizing e with
  | nil => exact absurd rfl hnames
  | append_singleton names name ih =>
    have hparent := htree.parent h
    rw [← List.append_assoc, List.dropLast_concat] at hparent
    by_cases hnil : names = []
    · rwa [hnil, List.append_nil] at hparent
    · exact ih hnil hparent

/-- Names other than pairs of dots lead to what is there. -/
theorem IsTree.walk (htree : fs.IsTree) {l : Location} {names : List Text}
    (hnames : (".." : Text) ∉ names) {e : Entry} (h : fs.at? (l ++ names) = some e) :
    fs.walk l names = .ok (l ++ names) := by
  induction names generalizing l with
  | nil => rw [Files.walk, List.append_nil]
  | cons name rest ih =>
    have hname : name ≠ ".." := fun hname => hnames (by simp [hname])
    have hrest : (".." : Text) ∉ rest := fun hmem => hnames (List.mem_cons_of_mem _ hmem)
    have hsplit : l ++ name :: rest = l ++ [name] ++ rest := by simp
    rw [Files.walk, htree.above (List.cons_ne_nil _ _) h, hsplit]
    simp only [if_neg hname]
    exact ih hrest (hsplit ▸ h)

/-- A path does not step back behind a missing directory: its names up to some point lead somewhere,
and behind them there is no pair of dots. -/
def IsSteady (fs : Files) (p : Path) : Prop :=
  ∃ there rest l, p.names = there ++ rest ∧ fs.walk (fs.start p) there = .ok l ∧
    (".." : Text) ∉ rest

/-- A path steps back behind no missing directory when directories were made. -/
theorem IsSteady.grows {p : Path} (hsteady : fs.IsSteady p) (h : fs.Grows fs') :
    fs'.IsSteady p := by
  obtain ⟨there, rest, l, hsplit, hthere, hrest⟩ := hsteady
  exact ⟨there, rest, l, hsplit, h.start p ▸ h.keepsDirectories.walk hthere, hrest⟩

/-- In a tree, a path starts in a directory. -/
theorem IsTree.start (htree : fs.IsTree) (p : Path) : fs.at? (fs.start p) = some .directory := by
  unfold Files.start
  split
  · exact at?_root fs
  · exact htree.home

/-- There are directories around a location that names lead to, if there are around the one that
they start from. -/
theorem above_of_walk {l m : Location} {names : List Text}
    (hl : ∀ k, k <+: l → k ≠ l → fs.at? k = some .directory) (h : fs.walk l names = .ok m) :
    ∀ k, k <+: m → k ≠ m → fs.at? k = some .directory := by
  induction names generalizing l with
  | nil =>
    cases h
    exact hl
  | cons name rest ih =>
    rw [walk] at h
    split at h
    · next hdir =>
      refine ih (fun k hk hne => ?_) h
      have hbelow : k <+: l := by
        split at hk
        · exact hk.trans (List.dropLast_prefix l)
        · next hname =>
          rw [if_neg hname] at hne
          exact (List.prefix_concat_iff.mp hk).resolve_left hne
      by_cases hsame : k = l
      · rwa [hsame]
      · exact hl k hbelow hsame
    · cases h
    · cases h

/-- Making directories along a path keeps a tree. -/
theorem GrowsAlong.isTree (htree : fs.IsTree) {p : Path} (h : fs.GrowsAlong p fs') :
    fs'.IsTree := by
  have hkeeps := h.keepsDirectories
  refine ⟨h.home ▸ hkeeps.directory htree.home, fun {l e} hl => ?_⟩
  rcases h.entry l with hsame | ⟨hnone, hdir⟩
  · exact hkeeps.directory (htree.parent (hsame.symm.trans hl))
  · obtain ⟨names, -, hwalk⟩ := h.onWay hnone hdir
    have hstart (k : Location) (hk : k <+: fs'.start p) (hne : k ≠ fs'.start p) :
        fs'.at? k = some .directory := by
      obtain ⟨more, hsplit⟩ := hk
      have hmore : more ≠ [] := fun hnil => hne (by rw [← hsplit, hnil, List.append_nil])
      have hdir := htree.start p
      rw [← h.start, ← hsplit] at hdir
      exact hkeeps.directory (htree.above hmore hdir)
    by_cases hnil : l = []
    · rw [hnil]
      exact at?_root fs'
    · have hlength := List.length_pos_iff.mpr hnil
      refine above_of_walk hstart hwalk l.dropLast (List.dropLast_prefix l) fun hsame => ?_
      have hshorter := congrArg List.length hsame
      rw [List.length_dropLast] at hshorter
      omega

/-- No new directory is at the end of a steady path around which directories were made. -/
theorem GrowsAlong.at?_eq {p : Path} (htree : fs.IsTree) (hsteady : fs.IsSteady p)
    (h : fs.GrowsAlong p.parent fs') {l : Location} (hl : fs'.locate p = .ok l) :
    fs'.at? l = fs.at? l := by
  refine (h.entry l).resolve_right ?_
  rintro ⟨hnone, hdir⟩
  obtain ⟨there, rest, m, hsplit, hthere, hrest⟩ := hsteady
  obtain ⟨names, hnames, hwalk⟩ := h.onWay hnone hdir
  change fs'.walk (fs'.start p) names = .ok l at hwalk
  rw [h.start] at hwalk
  rw [locate_eq_walk, h.start, hsplit] at hl
  have hm := h.keepsDirectories.walk hthere
  have hprefix := hnames.trans (List.dropLast_prefix _)
  rw [hsplit] at hprefix
  by_cases hshort : ∃ name more, there = names ++ name :: more
  · -- the names that were there already pass the new directory
    obtain ⟨name, more, rfl⟩ := hshort
    obtain ⟨k, hk, -⟩ := exists_walk_of_append hthere
    obtain rfl : k = l := Except.ok.inj ((h.keepsDirectories.walk hk).symm.trans hwalk)
    cases hnone.symm.trans (directory_of_walk_cons hthere hk)
  · obtain ⟨behind, rfl⟩ : there <+: names := by
      rcases List.prefix_or_prefix_of_prefix hprefix (List.prefix_append there rest) with
        ⟨more, rfl⟩ | hlong
      · cases more with
        | nil => simp
        | cons name more => exact absurd ⟨name, more, rfl⟩ hshort
      · exact hlong
    have hbehind : behind <+: rest := (List.prefix_append_right_inj there).mp hprefix
    rw [walk_append hm] at hl hwalk
    have hlrest := eq_append_of_walk hrest hl
    have hlbehind := eq_append_of_walk (fun hmem => hrest (hbehind.subset hmem)) hwalk
    have hsame : behind = rest := List.append_cancel_left (hlbehind.symm.trans hlrest)
    -- only a path without names is as long as the way to its parent
    have hlength := hnames.length_le
    rw [Path.parent, List.length_dropLast, hsplit, hsame] at hlength
    have hnil : there ++ rest = [] := List.length_eq_zero_iff.mp (by omega)
    obtain ⟨rfl, rfl⟩ := List.append_eq_nil_iff.mp hnil
    cases hthere
    rw [hlrest, List.append_nil, htree.start p] at hnone
    cases hnone

/-- **What is at the end of a steady path stays.** When directories are made around its place, there
is the same entry at the end of the path as before, or still nothing. -/
theorem GrowsAlong.entry?_eq {p : Path} (htree : fs.IsTree) (hsteady : fs.IsSteady p)
    (h : fs.GrowsAlong p.parent fs') : fs'.entry? p = fs.entry? p := by
  unfold entry?
  cases hbefore : fs.locate p with
  | ok k =>
    have hl := h.keepsDirectories.locate hbefore
    rw [hl]
    exact h.at?_eq htree hsteady hl
  | error f =>
    cases hl : fs'.locate p with
    | error f' => rfl
    | ok l =>
      dsimp only
      rw [h.at?_eq htree hsteady hl]
      cases he : fs.at? l with
      | none => rfl
      | some e =>
        obtain ⟨there, rest, m, hsplit, hthere, hrest⟩ := hsteady
        rw [locate_eq_walk, h.start, hsplit, walk_append (h.keepsDirectories.walk hthere)] at hl
        obtain rfl := eq_append_of_walk hrest hl
        rw [locate_eq_walk, hsplit, walk_append hthere, htree.walk hrest he] at hbefore
        cases hbefore

/-! ## The same entries -/

/-- Paths lead to the same locations when the same is everywhere. -/
theorem locate_congr (hhome : fs'.home = fs.home) (hsame : ∀ l, fs'.at? l = fs.at? l) (p : Path) :
    fs'.locate p = fs.locate p := by
  unfold locate
  rw [hhome]
  generalize (if p.absolute = true then [] else fs.home) = base
  induction p.names generalizing base with
  | nil => rfl
  | cons name rest ih =>
    rw [walk, walk, hsame]
    split
    · exact ih _
    · rfl
    · rfl

/-- The same is at the end of a path when the same is everywhere. -/
theorem entry?_congr (hhome : fs'.home = fs.home) (hsame : ∀ l, fs'.at? l = fs.at? l) (p : Path) :
    fs'.entry? p = fs.entry? p := by
  unfold entry?
  rw [locate_congr hhome hsame]
  split
  · exact hsame _
  · rfl

end Files

end PushButton
