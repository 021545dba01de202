import PushButton.Proofs.Cli.Endings
import PushButton.Proofs.Storage.Calls
import PushButton.Proofs.Workflow.Messages
import PushButton.Proofs.Workflow.Survey

/-!
# Checking many workflow files

Workflow files are checked in two ways: a survey goes over a directory, and a command goes over
files that are given to it. Both report on everything in front of them, each once and in order, and
they agree about every file. What a survey does not expect is a directory with the name of a
workflow file; the command prints labels and paths, which have to be plain for that.
-/

namespace PushButton

/-! ## Paths -/

/-- The pieces of a plain text are plain. -/
theorem Text.isPlain_splitOn {t : Text} (ht : t.IsPlain) (sep : Symbol) :
    ∀ piece ∈ splitOn sep t, piece.IsPlain := by
  induction t with
  | nil =>
    intro piece hpiece
    rw [List.mem_singleton.mp hpiece]
    exact isPlain_nil
  | cons s rest ih =>
    obtain ⟨hs, hrest⟩ := isPlain_cons.mp ht
    have hpieces := ih hrest
    unfold splitOn
    split
    · exact List.forall_mem_cons.mpr ⟨isPlain_nil, hpieces⟩
    · cases hsplit : splitOn sep rest with
      | nil => exact List.forall_mem_singleton.mpr (isPlain_cons.mpr ⟨hs, isPlain_nil⟩)
      | cons piece pieces =>
        rw [hsplit] at hpieces
        obtain ⟨hpiece, hmore⟩ := List.forall_mem_cons.mp hpieces
        exact List.forall_mem_cons.mpr ⟨isPlain_cons.mpr ⟨hs, hpiece⟩, hmore⟩

/-- A plain text stands for a path that is shown as a plain text. -/
theorem Path.isPlain_shown_ofText {t : Text} (ht : t.IsPlain) : (ofText t).shown.IsPlain := by
  have hjoin : (Text.join "/" (ofText t).names).IsPlain :=
    Text.isPlain_join (Text.isPlain_ofString "/") fun name hname =>
      Text.isPlain_splitOn ht _ name (List.mem_filter.mp hname).1
  unfold shown
  split
  · exact Text.isPlain_cons.mpr ⟨rfl, hjoin⟩
  · split
    · exact Text.isPlain_ofString "."
    · exact hjoin

namespace Survey

variable {fs : Files} {root : Path} {l : Location}

/-! ## Directories that can be surveyed -/

/-- Below a location, what has the name of a workflow file is a file, and what it holds is a
workflow or is refused because of the data. -/
structure IsFair (fs : Files) (l : Location) : Prop where
  /-- The location is that of a directory. -/
  directory : fs.at? l = some .directory
  /-- No directory below it has the name of a workflow file. -/
  file {names : List Text} : names ≠ [] → isWorkflowName (names.getLast?.getD []) = true →
    fs.at? (l ++ names) ≠ some .directory
  /-- Every workflow file is judged by its bytes. -/
  judged {names : List Text} {bytes : Bytes} {e : LoadError} (p : Path) :
    isWorkflowName (names.getLast?.getD []) = true → fs.at? (l ++ names) = some (.file bytes) →
      Workflow.ofBytes bytes = .error e → (e.failure p).kind.isInvalid = true

/-- What is there is a file that holds a workflow or invalid data. -/
def judges : Entry → Bool
  | .directory => false
  | .file bytes =>
    match Workflow.ofBytes bytes with
    | .ok _ => true
    | .error e => (e.failure (.ofText [])).kind.isInvalid

/-- A location is fair when whatever is listed with the name of a workflow file is a file that is
judged. -/
theorem IsFair.of_entries (hfs : fs.IsSystem) (hdirectory : fs.at? l = some .directory)
    (h : ∀ entry ∈ fs.entries, isWorkflowName (entry.1.getLast?.getD []) = true →
      judges entry.2 = true) : IsFair fs l := by
  have hlisted {names : List Text} {entry : Entry} (hnames : names ≠ [])
      (hname : isWorkflowName (names.getLast?.getD []) = true)
      (hentry : fs.at? (l ++ names) = some entry) : judges entry = true := by
    refine h _ ((hfs.at?_eq_some_iff (by simp [hnames])).mp hentry) ?_
    rwa [List.getLast?_append_of_ne_nil l hnames]
  have hnames {names : List Text} (hname : isWorkflowName (names.getLast?.getD []) = true) :
      names ≠ [] := by
    rintro rfl
    exact absurd hname (by decide)
  refine ⟨hdirectory, fun hne hname hentry => ?_, fun {names bytes e} p hname hentry he => ?_⟩
  · cases hlisted hne hname hentry
  · have hjudges := hlisted (hnames hname) hname hentry
    unfold judges at hjudges
    dsimp only at hjudges
    rw [he] at hjudges
    -- the path is in the message only
    cases e with
    | text flaw => cases flaw <;> exact hjudges
    | _ => exact hjudges

/-- Every place of a survey is judged. -/
theorem IsFair.isJudged (hfair : IsFair fs l) (hfs : fs.IsSystem) (hroot : fs.locate root = .ok l)
    {p : Path} (hp : p ∈ places fs root) : IsJudged fs p := by
  obtain ⟨names, hnames, hname, hthere, rfl⟩ := (mem_places_iff hfs hroot).mp hp
  obtain ⟨entry, hentry⟩ := Option.isSome_iff_exists.mp hthere
  have hplace : fs.entry? { root with names := root.names ++ names } = some entry := by
    unfold Files.entry?
    rw [hfs.locate_under hroot hnames hentry]
    exact hentry
  intro e hload
  rw [Workflow.load_eq, hplace] at hload
  cases entry with
  | directory => exact absurd hentry (hfair.file hnames hname)
  | file bytes => exact hfair.judged _ hname hentry hload

/-- A place is good when its file holds a workflow. -/
theorem isGood_eq (fs : Files) (p : Path) : isGood fs p =
    match fs.entry? p with
    | some (.file bytes) => (Workflow.ofBytes bytes).toOption.isSome
    | _ => false := by
  unfold isGood
  rw [Workflow.load_eq]
  cases fs.entry? p with
  | none => rfl
  | some entry => cases entry <;> rfl

/-- A record about a place says that all is well. -/
def saysOk (message : Text) : Bool := (Text.ofString "OK  ").isPrefixOf message

/-- The record about a place says whether it is good. -/
theorem saysOk_line (fs : Files) (p : Path) : saysOk (line fs p).message = isGood fs p := by
  have hok : Text.ofString "OK  " = [.char 'O', .char 'K', .char ' ', .char ' '] := by decide
  have herr : Text.ofString "ERR " = [.char 'E', .char 'R', .char 'R', .char ' '] := by decide
  unfold line isGood saysOk
  cases Workflow.load fs p with
  | ok w => simp [record, hok, Except.toOption]
  | error e => simp [record, hok, herr, Except.toOption, List.isPrefixOf]

end Survey

namespace Cli

namespace Job

variable {s : Shell} {path : Text}

/-! ## The command -/

/-- What the command says about a file. -/
def verdict (fs : Files) (path : Text) : Text :=
  match Workflow.load fs (.ofText path) with
  | .ok w =>
    "OK  " ++ aboutFile path ("[" ++ w.label ++ "] (" ++ Text.ofNat w.actions.length ++ " actions)")
  | .error e => errorWord ++ aboutFile path (e.failure (.ofText path)).message

/-- What the command prints about a file: a line without control sequences. -/
def entry (fs : Files) (path : Text) : Text := Text.dropControls (verdict fs path ++ "\n")

/-- A path leads to nothing, or to a file that holds a workflow with a plain label or is refused
because of the data; and the path can be printed. -/
structure IsTarget (fs : Files) (path : Text) : Prop where
  /-- The path is plain. -/
  plain : path.IsPlain
  /-- What is there is a file that is judged. -/
  judged : fs.has (.ofText path) = true → Survey.IsJudged fs (.ofText path)
  /-- The label of the workflow is plain. -/
  label {w : Workflow} : Workflow.load fs (.ofText path) = .ok w → w.label.IsPlain

/-- A target that holds no workflow is missing or holds invalid data. -/
theorem IsTarget.kind {fs : Files} (h : IsTarget fs path) {e : LoadError}
    (hload : Workflow.load fs (.ofText path) = .error e) :
    ((e.failure (.ofText path)).kind.isInvalid ||
      (e.failure (.ofText path)).kind = .file .missing) = true := by
  by_cases hthere : fs.has (.ofText path) = true
  · rw [h.judged hthere e hload, Bool.true_or]
  · have hmissing : Workflow.load fs (.ofText path) = .error .missing := by
      have hnone : fs.entry? (.ofText path) = none := by simpa [Files.has] using hthere
      rw [Workflow.load_eq, hnone]
    cases hload.symm.trans hmissing
    rfl

/-- What is said about a target is plain. -/
theorem IsTarget.isPlain_verdict {fs : Files} (h : IsTarget fs path) :
    (verdict fs path).IsPlain := by
  unfold verdict
  cases hload : Workflow.load fs (.ofText path) with
  | ok w => simp [aboutFile, h.plain, h.label hload]
  | error e =>
    have hmessage := Workflow.isPlain_message_of_load hload (Path.isPlain_shown_ofText h.plain)
    simp [aboutFile, errorWord, h.plain, hmessage]

/-- A target is checked, and what comes of it is printed. -/
theorem exec_check (h : IsTarget s.machine.files path) : (check path).exec s =
    (.ok (Survey.isGood s.machine.files (.ofText path)),
      { s with past := .printed (entry s.machine.files path) :: s.past }) := by
  have hload : (load path).exec s = (ofExcept ((Workflow.load s.machine.files
      (.ofText path)).mapError (·.failure (.ofText path)))).exec s := rfl
  have hplain := h.isPlain_verdict
  unfold check Survey.isGood entry
  unfold verdict at hplain ⊢
  rw [exec_tryCatch, exec_bind, hload, exec_ofExcept]
  cases hresult : Workflow.load s.machine.files (.ofText path) with
  | ok w =>
    rw [hresult] at hplain
    dsimp only [Except.mapError]
    rw [exec_bind, exec_say_of_isPlain hplain]
    rfl
  | error e =>
    rw [hresult] at hplain
    dsimp only [Except.mapError]
    rw [if_pos (h.kind hresult), exec_bind, exec_say_of_isPlain hplain]
    rfl

/-- Targets are checked one after the other, and what comes of each is printed. The induction is on
the targets. -/
theorem exec_mapM_check {paths : List Text} (h : ∀ path ∈ paths, IsTarget s.machine.files path) :
    (paths.mapM check).exec s =
      (.ok (paths.map fun path => Survey.isGood s.machine.files (.ofText path)),
        { s with
          past := (paths.map fun path => .printed (entry s.machine.files path)).reverse ++
            s.past }) := by
  induction paths generalizing s with
  | nil => rfl
  | cons path rest ih =>
    have hrest := @ih { s with past := .printed (entry s.machine.files path) :: s.past }
      fun p hp => h p (List.mem_cons_of_mem _ hp)
    rw [List.mapM_cons, exec_bind, exec_check (h path List.mem_cons_self)]
    dsimp only
    rw [exec_bind, hrest]
    simp

/-- All targets are checked, and the job ends with the exit code 0 when all of them are good. -/
theorem exec_checkAll {paths : List Text} (h : ∀ path ∈ paths, IsTarget s.machine.files path) :
    (checkAll paths).exec s =
      (.error (.exit (if paths.all fun path => Survey.isGood s.machine.files (.ofText path)
        then 0 else 1)),
        { s with
          past := (paths.map fun path => .printed (entry s.machine.files path)).reverse ++
            s.past }) := by
  unfold checkAll
  rw [exec_bind, exec_mapM_check h]
  dsimp only
  rw [List.all_map]
  rfl

/-- What is printed about a target says whether it is good. -/
theorem saysOk_entry (fs : Files) (path : Text) :
    Survey.saysOk (entry fs path) = Survey.isGood fs (.ofText path) := by
  have hok : Text.ofString "OK  " = [.char 'O', .char 'K', .char ' ', .char ' '] := by decide
  have herr : errorWord = [.char 'E', .char 'R', .char 'R', .char ' '] := by decide
  unfold entry verdict Survey.isGood Survey.saysOk
  cases Workflow.load fs (.ofText path) with
  | ok w =>
    dsimp only
    rw [List.append_assoc, Text.dropControls_append (by rw [hok]; decide)]
    simp [hok, Except.toOption]
  | error e =>
    dsimp only
    rw [List.append_assoc, Text.dropControls_append (by rw [herr]; decide)]
    simp [hok, herr, Except.toOption, List.isPrefixOf]

end Job

/-! ## Both ways -/

/-- **Checking many files covers everything it is given.** Below a directory without directories
that have the name of a workflow file, and where each file with such a name holds a workflow or is
refused because of the data, a survey goes over exactly the places with such a name, each once and
in order. It makes one record about each, which says that all is well or what is wrong, and one with
their numbers, and nothing is wrong exactly when all records say so. The command goes over any such
files and missing ones, as long as their paths and the labels of their workflows can be printed: it
prints one entry about each, in the order in which they are given, and ends with the exit code 0
exactly when all entries say that all is well. An entry about a file and a record about it agree. -/
theorem validates_everything {fs : Files} (hfs : fs.IsSystem) :
    (∀ root l, fs.locate root = .ok l → Survey.IsFair fs l →
      (∀ p, p ∈ Survey.places fs root ↔ ∃ names, names ≠ [] ∧
        Survey.isWorkflowName (names.getLast?.getD []) = true ∧
        (fs.at? (l ++ names)).isSome = true ∧ p = { root with names := root.names ++ names }) ∧
      (Survey.places fs root).Pairwise (fun p q =>
        Survey.before p.names q.names = true ∧ p ≠ q) ∧
      let lines := (Survey.places fs root).map (Survey.line fs)
      Survey.run fs root =
        (lines ++ [Survey.summary (lines.countP fun r => Survey.saysOk r.message) lines.length],
          .ok (lines.all fun r => Survey.saysOk r.message))) ∧
    (∀ m around args s paths, begun? m around args = some (s, .validate paths) →
      s.machine.files = fs → (∀ path ∈ paths, Job.IsTarget fs path) →
      let entries := paths.map (Job.entry fs)
      (run m around args).occurrences = entries.map .printed ∧
      (run m around args).ending = .exit (if entries.all Survey.saysOk then 0 else 1)) ∧
    ∀ (p : Path) (path : Text), fs.entry? (.ofText path) = fs.entry? p →
      Survey.saysOk (Job.entry fs path) = Survey.saysOk (Survey.line fs p).message := by
  refine ⟨fun root l hroot hfair => ⟨?_, ?_, ?_⟩, ?_, ?_⟩
  · exact fun p => Survey.mem_places_iff hfs hroot
  · exact Survey.pairwise_places hfs hroot
  · have hthere : fs.has root = true := by
      unfold Files.has Files.entry?
      rw [hroot]
      dsimp only
      rw [hfair.directory]
      rfl
    intro lines
    rw [Survey.run_eq hthere fun p hp => hfair.isJudged hfs hroot hp]
    simp only [lines, List.countP_map, List.all_map, List.length_map, Function.comp_def,
      Survey.saysOk_line]
  · intro m around args s paths hbegun hfiles htargets entries
    subst hfiles
    have hpast := (around_of_begun? hbegun).2
    have hexec := Job.exec_checkAll htargets
    have hjob : Command.job (.validate paths) = Job.checkAll paths := rfl
    rw [run_of_begun? hbegun, occurrences_carryOut, ending_carryOut, hjob, hexec]
    constructor
    · have hkept : ∀ o ∈ entries.map Occurrence.printed, isKept s.thresholds o = true := by
        intro o ho
        obtain ⟨t, -, rfl⟩ := List.mem_map.mp ho
        rfl
      rw [hpast, List.append_nil, List.reverse_reverse, ← List.filter_eq_self.mpr hkept,
        List.map_map]
      rfl
    · simp only [entries, List.all_map, Function.comp_def, Job.saysOk_entry]
  · intro p path hsame
    rw [Job.saysOk_entry, Survey.saysOk_line, Survey.isGood_eq, Survey.isGood_eq, hsame]

/-- A directory with a workflow and, further down, a file that holds none, with the directories that
a process makes for itself. -/
def shelved : Files :=
  let bytesOf (t : Text) : Bytes := (Utf8.encode t).toOption.getD []
  ⟨["home"], [(["home"], .directory), (["home", ".button_workflow"], .directory),
    (["home", "logs"], .directory), (["home", "workflows"], .directory),
    (["home", "workflows", "a.yaml"], .file (bytesOf "buttonLabel: Go\n")),
    (["home", "workflows", "more"], .directory),
    (["home", "workflows", "more", "b.json"], .file (bytesOf "[]\n"))], []⟩

/-- A survey of the directory tells one good file and one bad one, and so does the command about the
bad one, one that is missing, and the good one. -/
theorem validates_shelved :
    Survey.run shelved (.ofText "workflows") =
      ([Survey.record .info "OK  workflows/a.yaml (0 actions)",
        Survey.record .error ("ERR workflows/more/b.json: Workflow 'workflows/more/b.json' must " ++
          "define a mapping/object at the top level."),
        Survey.record .info "Validated 1/2 workflow(s)."], .ok false) ∧
    let checked := run { files := shelved } { environment := [] }
      ["validate", "workflows/more/b.json", "no.yaml", "workflows/a.yaml"]
    checked.ending = .exit 1 ∧ checked.output =
      "ERR workflows/more/b.json  ->  Workflow 'workflows/more/b.json' must define a " ++
        ("mapping/object at the top level.\nERR no.yaml  ->  Workflow file not found: no.yaml\n" ++
          "OK  workflows/a.yaml  ->  [Go] (0 actions)\n") := by
  have hgood : Workflow.load shelved (.ofText "workflows/a.yaml") = .ok ⟨"Go", []⟩ := by
    decide +kernel
  have hbad : Workflow.load shelved (.ofText "workflows/more/b.json") =
    .error (.rejected .notMapping) := by decide +kernel
  have hmissing : Workflow.load shelved (.ofText "no.yaml") = .error .missing := by decide +kernel
  have hsystem : shelved.IsSystem :=
    ⟨.of_entries rfl (by decide +kernel), by decide +kernel, by decide +kernel⟩
  have hfair : Survey.IsFair shelved ["home", "workflows"] :=
    .of_entries hsystem (by decide +kernel) (by decide +kernel)
  have hstate : Carries { files := shelved } { environment := [] }
      ["validate", "workflows/more/b.json", "no.yaml", "workflows/a.yaml"] fun s c =>
        c = .validate ["workflows/more/b.json", "no.yaml", "workflows/a.yaml"] ∧
          s.machine.files = shelved := by
    decide +kernel
  obtain ⟨⟨s, c⟩, hbegun⟩ := Option.isSome_iff_exists.mp (by decide +kernel : (begun?
    { files := shelved } { environment := [] }
      ["validate", "workflows/more/b.json", "no.yaml", "workflows/a.yaml"]).isSome = true)
  obtain ⟨rfl, hfiles⟩ := hstate _ hbegun
  have htargets : ∀ path ∈ (["workflows/more/b.json", "no.yaml", "workflows/a.yaml"] : List Text),
      Job.IsTarget shelved path := by
    simp only [List.forall_mem_cons, List.not_mem_nil, false_imp_iff, implies_true, and_true]
    refine ⟨⟨by decide, fun _ e he => ?_, fun hw => ?_⟩, ⟨by decide, fun h => ?_, fun hw => ?_⟩,
      ⟨by decide, fun _ e he => ?_, fun hw => ?_⟩⟩
    · cases he.symm.trans hbad
      rfl
    · cases hw.symm.trans hbad
    · exact absurd h (by decide +kernel)
    · cases hw.symm.trans hmissing
    · cases he.symm.trans hgood
    · cases hw.symm.trans hgood
      decide
  obtain ⟨hsurvey, hcommand, -⟩ := validates_everything hsystem
  obtain ⟨-, -, hrun⟩ := hsurvey (.ofText "workflows") _ (by decide +kernel) hfair
  obtain ⟨hoccurrences, hending⟩ := hcommand _ _ _ _ _ hbegun hfiles htargets
  have hplaces : Survey.places shelved (.ofText "workflows") =
      [.ofText "workflows/a.yaml", .ofText "workflows/more/b.json"] := by
    have hfound : Survey.found shelved ["home", "workflows"] =
      ([["a.yaml"], ["more", "b.json"]] : List (List Text)) := by decide +kernel
    have hlocate : shelved.locate (.ofText "workflows") = .ok ["home", "workflows"] := by
      decide +kernel
    rw [Survey.places_eq hlocate, hfound, List.mergeSort_of_pairwise (by decide)]
    decide
  refine ⟨hrun.trans ?_, ?_, ?_⟩
  · have hfirst : Survey.line shelved (.ofText "workflows/a.yaml") =
        Survey.record .info "OK  workflows/a.yaml (0 actions)" := by
      unfold Survey.line
      rw [hgood]
      exact congrArg (Survey.record .info) (by decide)
    have hsecond : Survey.line shelved (.ofText "workflows/more/b.json") =
        Survey.record .error ("ERR workflows/more/b.json: Workflow 'workflows/more/b.json' must " ++
          "define a mapping/object at the top level.") := by
      unfold Survey.line
      rw [hbad]
      exact congrArg (Survey.record .error) (by decide +kernel)
    have hnumbers : Survey.summary 1 2 = Survey.record .info "Validated 1/2 workflow(s)." :=
      congrArg (Survey.record .info) (by decide)
    rw [hplaces, List.map_cons, List.map_cons, List.map_nil, hfirst, hsecond, ← hnumbers]
    rfl
  · exact hending.trans (by decide +kernel)
  · unfold Outcome.output
    rw [hoccurrences]
    decide +kernel

/-- Not every directory is gone over, and a survey and the command do not always agree. A directory
with the name of a workflow file stops a survey, so that nothing is told about the places behind it;
and a label that cannot be printed makes the command call a file bad that holds a workflow. -/
theorem not_everything_validated :
    (¬ ∀ (fs : Files) (root : Path) (l : Location), fs.IsSystem → fs.locate root = .ok l →
      fs.at? l = some .directory →
      (∀ entry ∈ fs.entries, entry.2 ≠ .directory → Survey.judges entry.2 = true) →
      ∃ good, (Survey.run fs root).2 = .ok good) ∧
    ¬ ∀ (m : Machine) (around : Surroundings) (args : List Text) (s : Shell) (path : Text),
      begun? m around args = some (s, .validate [path]) → s.machine.files.IsSystem →
      (∀ entry ∈ s.machine.files.entries, entry.2 ≠ .directory →
        Survey.judges entry.2 = true) →
      ((run m around args).ending = .exit 0 ↔
        Survey.saysOk (Survey.line s.machine.files (.ofText path)).message = true) := by
  let bytesOf (t : Text) : Bytes := (Utf8.encode t).toOption.getD []
  constructor
  · intro hall
    let fs : Files := ⟨[], [(["workflows"], .directory), (["workflows", "d.yaml"], .directory),
      (["workflows", "e.yaml"], .file (bytesOf "buttonLabel: Go\n"))], []⟩
    have hlocate : fs.locate (.ofText "workflows") = .ok ["workflows"] := by decide +kernel
    have hsystem : fs.IsSystem :=
      ⟨.of_entries rfl (by decide +kernel), by decide +kernel, by decide +kernel⟩
    have hplaces : Survey.places fs (.ofText "workflows") =
        [.ofText "workflows/d.yaml", .ofText "workflows/e.yaml"] := by
      have hfound : Survey.found fs ["workflows"] = ([["d.yaml"], ["e.yaml"]] : List (List Text)) :=
        by decide +kernel
      rw [Survey.places_eq hlocate, hfound, List.mergeSort_of_pairwise (by decide)]
      decide
    have hstopped : (Survey.visitAll fs {} (Survey.places fs (.ofText "workflows"))).2 =
        some ⟨.file .isDirectory, "[Errno 21] Is a directory: 'workflows/d.yaml'"⟩ := by
      rw [hplaces]
      decide +kernel
    obtain ⟨good, hgood⟩ := hall fs (.ofText "workflows") _ hsystem hlocate (by decide +kernel)
      (by decide +kernel)
    have hthere : fs.has (.ofText "workflows") = true := by decide +kernel
    unfold Survey.run at hgood
    rw [hthere] at hgood
    cases hvisit : Survey.visitAll fs {} (Survey.places fs (.ofText "workflows")) with
    | mk found failure =>
      rw [hvisit] at hgood hstopped
      cases hstopped
      cases hgood
  · intro hall
    let files : Files := ⟨["home"], [(["home"], .directory),
      (["home", ".button_workflow"], .directory), (["home", "logs"], .directory),
      (["home", "w.yaml"], .file (bytesOf "buttonLabel: \"\\uD800\"\n"))], []⟩
    have hsystem : files.IsSystem :=
      ⟨.of_entries rfl (by decide +kernel), by decide +kernel, by decide +kernel⟩
    have hstate : Carries { files := files } { environment := [] } ["validate", "w.yaml"]
        fun s c => c = .validate ["w.yaml"] ∧ s.machine.files = files := by
      decide +kernel
    obtain ⟨⟨s, c⟩, hbegun⟩ := Option.isSome_iff_exists.mp (by decide +kernel : (begun?
      { files := files } { environment := [] } ["validate", "w.yaml"]).isSome = true)
    obtain ⟨rfl, hfiles⟩ := hstate _ hbegun
    have hagree := hall _ _ _ s "w.yaml" hbegun (hfiles ▸ hsystem)
      (by rw [hfiles]; decide +kernel)
    rw [hfiles, Survey.saysOk_line] at hagree
    have hending : (run { files := files } { environment := [] }
      ["validate", "w.yaml"]).ending = .exit 1 := by decide +kernel
    have hgood := hagree.mpr (by decide +kernel)
    cases hending.symm.trans hgood

end Cli

end PushButton
