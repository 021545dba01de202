import PushButton.Cli.Shell
import PushButton.Proofs.Files.Tree

/-!
# What the log leaves

Records are written to the log file as soon as they are made. That leaves everything at other
locations and takes no directory away, and what is only printed leaves the log as well.
-/

namespace PushButton

/-- Records that are written to a log file leave everything at other locations, and take no
directory away. -/
theorem Files.keepsDirectories_appendRecords (fs : Files) (p : Path) (time : Moment)
    (records : List Record) :
    KeepsDirectories fs (fs.appendRecords p time records) ∧
      ∀ l, fs.locate p ≠ .ok l → (fs.appendRecords p time records).at? l = fs.at? l := by
  unfold appendRecords
  split
  · exact ⟨.refl fs, fun _ _ => rfl⟩
  · dsimp only
    cases hwrite : fs.write p _ with
    | error e => exact ⟨.refl fs, fun _ _ => rfl⟩
    | ok fs' =>
      obtain ⟨log, hlog, rfl⟩ := write_eq_ok_iff.mp hwrite
      obtain ⟨hplace, hfree, -⟩ := writable_eq_ok_iff.mp hlog
      refine ⟨.put hfree _, fun l hl => ?_⟩
      have hne : l ≠ log := fun hsame => hl (hsame ▸ hplace)
      simp [Except.toOption, at?_put (ne_root hfree), hne]

namespace Cli

namespace Shell

/-- The log of a process is written at a location. -/
def LogsAt (s : Shell) (l : Location) : Prop :=
  s.settings.logToFile = true ∧ s.machine.files.locate s.settings.logFile = .ok l

/-- What is printed is not written to the log. -/
@[simp] theorem journal_printed (s : Shell) (fs : Files) (t : Text) :
    s.journal fs [.printed t] = fs := by
  unfold journal
  split
  · rfl
  · rfl

/-- A file system is another one but for the log of a process: they differ in the file of the log
alone, and not at all if no log is written. -/
structure IsButForLog (s : Shell) (fs fs' : Files) : Prop where
  /-- No directory is taken away. -/
  keeps : fs.KeepsDirectories fs'
  /-- The same is at other locations than that of the log. -/
  elsewhere (l : Location) :
    (s.settings.logToFile = true → fs.locate s.settings.logFile ≠ .ok l) → fs'.at? l = fs.at? l
  /-- If no log is written there is no difference. -/
  unlogged : s.settings.logToFile = false → fs' = fs

/-- What happens changes the file of the log alone. -/
theorem isButForLog_journal (s : Shell) (fs : Files) (os : List Occurrence) :
    s.IsButForLog fs (s.journal fs os) := by
  unfold journal
  split
  · next hlogs =>
    obtain ⟨hkeeps, hothers⟩ := fs.keepsDirectories_appendRecords s.settings.logFile s.around.time
      ((os.filter (isKept s.thresholds)).filterMap Occurrence.record?)
    exact ⟨hkeeps, fun l hl => hothers l (hl hlogs), fun h => by cases h.symm.trans hlogs⟩
  · exact ⟨.refl fs, fun _ _ => rfl, fun _ => rfl⟩

/-- Records in the log leave everything at other locations, and take no directory away. -/
theorem keepsDirectories_journal (s : Shell) (os : List Occurrence) :
    s.machine.files.KeepsDirectories (s.journal s.machine.files os) ∧
      ∀ l, ¬ s.LogsAt l → (s.journal s.machine.files os).at? l = s.machine.files.at? l := by
  have hlog := s.isButForLog_journal s.machine.files os
  exact ⟨hlog.keeps, fun l hl => hlog.elsewhere l fun hlogs hplace => hl ⟨hlogs, hplace⟩⟩

/-- Records in the log leave what is at the end of a path, where the log is at another location. -/
theorem entry?_journal (s : Shell) {p : Path}
    (hparent : s.machine.files.hasDirectory p.parent = true)
    (helsewhere : ∀ l, s.LogsAt l → s.machine.files.locate p ≠ .ok l) (os : List Occurrence) :
    Files.entry? (s.journal s.machine.files os) p = s.machine.files.entry? p := by
  obtain ⟨hkeeps, hothers⟩ := s.keepsDirectories_journal os
  obtain ⟨l, hl⟩ := Files.exists_locate_of_parent hparent
  rw [Files.entry?, Files.entry?, hkeeps.locate hl, hl]
  exact hothers l fun hlog => helsewhere l hlog hl

end Shell

end Cli

end PushButton
