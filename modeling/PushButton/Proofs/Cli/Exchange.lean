import PushButton.Cli.Transfer
import PushButton.Proofs.Cli.Exec
import PushButton.Proofs.Files.Tree
import PushButton.Proofs.Storage.Items
import PushButton.Proofs.Workflow.Made
import PushButton.Proofs.Yaml.Nodes

/-!
# Exported workflows are brought in again

An exported workflow is written as JSON and read as YAML. The two formats agree on most texts, but
not on all: YAML refuses some of the symbols that JSON leaves as they are, drops white space around
separators of lines, and takes only short keys. A workflow whose texts keep clear of this is the one
that is brought in again.
-/

namespace PushButton

/-- The stored form of an action has its parameters on the second level. -/
theorem Action.depth_toJson_le (a : Action) : (Datum.ofJson a.toJson).depth ≤ 2 := by
  have htexts (ps : List (Text × Text)) : Datum.depthOfEntries
      (Datum.ofFields (ps.map fun p => (p.1, .text p.2))) = 0 := by
    induction ps with
    | nil => rfl
    | cons p rest ih => simp [Datum.ofFields, Datum.ofJson, Datum.depthOfEntries, Datum.depth, ih]
  unfold toJson
  cases a.params with
  | none => simp [Datum.ofFields, Datum.ofJson, Datum.depthOfEntries, Datum.depth]
  | some ps => simp [Datum.ofFields, Datum.ofJson, Datum.depthOfEntries, Datum.depth, htexts]

namespace Workflow

/-- A workflow whose texts YAML reads as JSON writes them. -/
structure IsCarried (w : Workflow) : Prop where
  /-- The label is carried over. -/
  label : w.label.IsCarried
  /-- The ids are carried over. -/
  ids : ∀ a ∈ w.actions, a.id.IsCarried
  /-- The names of the parameters are keys, and their values are carried over. -/
  params : ∀ a ∈ w.actions, ∀ ps ∈ a.params, ∀ p ∈ ps, p.1.IsKey ∧ p.2.IsCarried

instance (w : Workflow) : Decidable w.IsCarried :=
  decidable_of_iff
    (w.label.IsCarried ∧ (∀ a ∈ w.actions, a.id.IsCarried) ∧
      ∀ a ∈ w.actions, ∀ ps ∈ a.params, ∀ p ∈ ps, p.1.IsKey ∧ p.2.IsCarried)
    ⟨fun ⟨h₁, h₂, h₃⟩ => ⟨h₁, h₂, h₃⟩, fun ⟨h₁, h₂, h₃⟩ => ⟨h₁, h₂, h₃⟩⟩

end Workflow

/-- No half of a surrogate pair is in a text that is carried over. -/
theorem Text.IsCarried.isPlain {t : Text} (h : t.IsCarried) : t.IsPlain := by
  intro s hs
  obtain ⟨rest, hs⟩ := h.of_mem hs
  cases s with
  | char c => rfl
  | lone i =>
    have hcode : (Symbol.lone i).code = 0xD800 + i.val := rfl
    have hallowed := hs.allowed (by omega)
    simp only [Yaml.isAllowed, hcode, Bool.or_eq_true, Bool.and_eq_true, decide_eq_true_eq]
      at hallowed
    omega

/-- The names of the kinds of actions are carried over. -/
theorem ActionKind.isCarried_name (k : ActionKind) : k.name.IsCarried := by
  cases k <;> decide

/-- The parameters of an action are carried over when their names are distinct keys. -/
theorem Action.isCarried_paramsJson {ps : List (Text × Text)} (hkeys : (Json.keys ps).Nodup)
    (h : ∀ p ∈ ps, p.1.IsKey ∧ p.2.IsCarried) : (Action.paramsJson ps).IsCarried := by
  refine .object (by simpa [Json.keys, Function.comp_def] using hkeys) ?_ ?_
  · intro f hf
    obtain ⟨p, hp, rfl⟩ := List.mem_map.1 hf
    exact (h p hp).1
  · intro f hf
    obtain ⟨p, hp, rfl⟩ := List.mem_map.1 hf
    exact .text (h p hp).2

/-- The stored form of an action is carried over when its texts are. -/
theorem Action.HasDistinctNames.isCarried_toJson {a : Action} (h : a.HasDistinctNames)
    (hid : a.id.IsCarried) (hparams : ∀ ps ∈ a.params, ∀ p ∈ ps, p.1.IsKey ∧ p.2.IsCarried) :
    a.toJson.IsCarried := by
  have hnames : ∀ name ∈ ([("id" : Text), "type", "params"] : List Text), name.IsKey := by decide
  unfold Action.toJson
  cases hps : a.params with
  | none =>
    refine .object (by decide : ([("id" : Text), "type"] : List Text).Nodup) ?_ ?_
    · exact List.forall_mem_cons.2
        ⟨hnames _ (by simp), List.forall_mem_singleton.2 (hnames _ (by simp))⟩
    · exact List.forall_mem_cons.2
        ⟨.text hid, List.forall_mem_singleton.2 (.text a.kind.isCarried_name)⟩
  | some ps =>
    have hfields := Action.isCarried_paramsJson (h ps hps) (hparams ps hps)
    refine .object (by decide : ([("id" : Text), "type", "params"] : List Text).Nodup) ?_ ?_
    · exact List.forall_mem_cons.2 ⟨hnames _ (by simp), List.forall_mem_cons.2
        ⟨hnames _ (by simp), List.forall_mem_singleton.2 (hnames _ (by simp))⟩⟩
    · exact List.forall_mem_cons.2 ⟨.text hid, List.forall_mem_cons.2
        ⟨.text a.kind.isCarried_name, List.forall_mem_singleton.2 hfields⟩⟩

namespace Workflow

/-- The stored form of a workflow is carried over when its texts are. -/
theorem IsCarried.toJson {w : Workflow} (h : w.IsCarried) (hnames : w.HasDistinctNames) :
    w.toJson.IsCarried := by
  refine .object (by decide : ([("buttonLabel" : Text), "actions"] : List Text).Nodup) ?_ ?_
  · have hkeys : ∀ name ∈ ([("buttonLabel" : Text), "actions"] : List Text), name.IsKey := by decide
    exact List.forall_mem_cons.2
      ⟨hkeys _ (by simp), List.forall_mem_singleton.2 (hkeys _ (by simp))⟩
  · refine List.forall_mem_cons.2 ⟨.text h.label, List.forall_mem_singleton.2 (.array ?_)⟩
    intro v hv
    obtain ⟨a, ha, rfl⟩ := List.mem_map.1 hv
    exact (hnames a ha).isCarried_toJson (h.ids a ha) (h.params a ha)

/-- No half of a surrogate pair is in a workflow whose texts are carried over. -/
theorem IsCarried.isPlain {w : Workflow} (h : w.IsCarried) : w.IsPlain :=
  ⟨h.label.isPlain, fun a ha => ⟨(h.ids a ha).isPlain, fun ps hps p hp =>
    ⟨(h.params a ha ps hps p hp).1.carried.isPlain, (h.params a ha ps hps p hp).2.isPlain⟩⟩⟩

/-- What is written to a file for a workflow: its stored form with two spaces for each level, and a
line ending. -/
def exported (w : Workflow) : Text := w.dump (some 2) ++ "\n"

/-- A plain workflow has bytes when it is exported, and they are read as what was written. -/
theorem IsPlain.exists_bytes {w : Workflow} (h : w.IsPlain) :
    ∃ bytes, Utf8.encode w.exported = .ok bytes ∧ Files.textOf bytes = .ok w.exported := by
  have hplain : w.exported.IsPlain := by
    intro s hs
    obtain hs | hs := List.mem_append.1 hs
    · exact h.dump (some 2) s hs
    · exact Text.isPlain_ofString "\n" s hs
  have hreturn : .char '\r' ∉ w.exported := by
    intro hmem
    obtain hmem | hmem := List.mem_append.1 hmem
    · exact Storage.notMem_block w.toJson hmem
    · exact absurd hmem (by decide)
  obtain ⟨bytes, hencode, hdecode⟩ := Utf8.exists_encode_decode hplain
  refine ⟨bytes, hencode, ?_⟩
  rw [Files.textOf, hdecode, Except.map, Text.unifyLines_of_notMem hreturn]

/-- Bytes that are read from a file decide which workflow is loaded. -/
theorem load_of_read {fs : Files} {p : Path} {bytes : Bytes} (h : fs.read p = .ok bytes) :
    load fs p = ofBytes bytes := by
  have hhas : fs.has p = true := by
    unfold Files.read at h
    unfold Files.has Files.entry?
    cases hlocate : fs.locate p with
    | error f => rw [hlocate] at h; cases h
    | ok l =>
      rw [hlocate] at h
      dsimp only at h ⊢
      cases hat : fs.at? l with
      | none => rw [hat] at h; cases h
      | some e => rfl
  rw [load, hhas, h]
  rfl

/-- Parameters can be written in data that are not too deep. -/
theorem hasDeepParameter_eq_false {d : Datum} (h : d.depth ≤ Datum.maxDepth) :
    d.hasDeepParameter = false := by
  unfold Datum.hasDeepParameter
  split
  · next entries =>
    split
    · next ds hactions =>
      rw [List.any_eq_false]
      intro action haction hdeep
      unfold Datum.hasDeepParameter.isDeepAction at hdeep
      split at hdeep
      · next fields =>
        split at hdeep
        · next params hparams =>
          obtain ⟨p, hp, hdepth⟩ := List.any_eq_true.mp hdeep
          have hlist := Datum.depth_lt_of_entry? hactions
          have hitem := Datum.depth_lt_of_mem haction
          have hmap := Datum.depth_lt_of_entry? hparams
          have hvalue := Datum.depth_le_depthOfEntries hp
          rw [Datum.depth] at hmap
          have hdepth : Datum.maxDepth < p.2.depth := by simpa using hdepth
          omega
        · cases hdeep
      · cases hdeep
    · rfl
  · rfl

/-- The stored form of a workflow has its actions on the second level. -/
theorem depth_toJson_le (w : Workflow) : (Datum.ofJson w.toJson).depth ≤ 4 := by
  have hactions (actions : List Action) :
      Datum.depthOfItems (Datum.ofItems (actions.map Action.toJson)) ≤ 2 := by
    induction actions with
    | nil => exact Nat.zero_le _
    | cons a rest ih => exact Nat.max_le.mpr ⟨a.depth_toJson_le, ih⟩
  have hdepth : (Datum.ofJson w.toJson).depth =
      Datum.depthOfItems (Datum.ofItems (w.actions.map Action.toJson)) + 1 + 1 := by
    simp [toJson, Datum.ofFields, Datum.ofJson, Datum.depthOfEntries, Datum.depth]
  rw [hdepth]
  exact Nat.succ_le_succ (Nat.succ_le_succ (hactions w.actions))

/-- The bytes of an exported workflow hold that workflow. -/
theorem IsCarried.ofBytes {w : Workflow} (h : w.IsCarried) (hnames : w.HasDistinctNames)
    {bytes : Bytes} (hbytes : Utf8.encode w.exported = .ok bytes) :
    Workflow.ofBytes bytes = .ok w := by
  obtain ⟨bytes', hencode, htext⟩ := h.isPlain.exists_bytes
  obtain rfl : bytes = bytes' := Except.ok.inj (hbytes.symm.trans hencode)
  have hread : Yaml.read w.exported = .ok (Datum.ofJson w.toJson) :=
    Yaml.read_write (h.toJson hnames) (Nat.le_trans w.depth_toJson_le (by decide)) rfl (by decide)
  have hdatum : ofDatum (Datum.ofJson w.toJson) = .ok w := hnames.ofJson_toJson
  rw [Workflow.ofBytes, htext]
  have hshallow := hasDeepParameter_eq_false (Nat.le_trans w.depth_toJson_le (by decide))
  simp only [Except.mapError, bind, Except.bind, hread, ofDocument, hshallow, hdatum]
  rfl

end Workflow

/-- What is written to a file is read from it. -/
theorem Files.read_of_write {fs fs' : Files} {p : Path} {bytes : Bytes}
    (h : fs.write p bytes = .ok fs') : fs'.read p = .ok bytes := by
  obtain ⟨l, hl, rfl⟩ := Files.write_eq_ok_iff.mp h
  obtain ⟨hplace, hfree, -⟩ := Files.writable_eq_ok_iff.mp hl
  rw [Files.read, (Files.KeepsDirectories.put hfree (.file bytes)).locate hplace]
  dsimp only
  rw [Files.at?_put (Files.ne_root hfree), if_pos rfl]

namespace Cli

namespace Job

/-- A file that is written well holds the bytes of the text. -/
theorem read_of_writeFile {s s' : Shell} {path text shown : Text}
    (h : (writeFile path text).exec s = (.ok shown, s')) :
    ∃ bytes, Utf8.encode text = .ok bytes ∧ s'.machine.files.read
      ((Path.ofText path).resolved ⟨true, s.machine.files.home⟩) = .ok bytes := by
  -- The steps of the job, one after the other.
  obtain ⟨_, _, ⟨⟩, h⟩ := exists_of_exec_bind h
  dsimp only at h
  obtain ⟨_, _, ⟨⟩, h⟩ := exists_of_exec_bind h
  obtain ⟨_, _, hmake, h⟩ := exists_of_exec_bind h
  obtain ⟨-, rfl⟩ := of_exec_ofExcept hmake
  obtain ⟨_, _, hwrite, h⟩ := exists_of_exec_bind h
  obtain ⟨hwritten, rfl⟩ := of_exec_ofExcept hwrite
  obtain ⟨_, _, ⟨⟩, h⟩ := exists_of_exec_bind h
  obtain ⟨bytes, _, hbytes, h⟩ := exists_of_exec_bind h
  obtain ⟨hencoded, rfl⟩ := of_exec_ofExcept hbytes
  cases h
  have hencode := of_mapError_eq_ok hencoded
  rw [hencode] at hwritten
  exact ⟨bytes, hencode, Files.read_of_write (of_mapError_eq_ok hwritten)⟩

/-- An export that ends well leaves the bytes of the stored workflow in the file. -/
theorem read_of_writeOut {s s' : Shell} {w : Workflow} {path : Text} (hpath : path ≠ [])
    (hstored : (⟨.file s.settings.storageFile, s.machine.files⟩ : Shelf).loadWorkflow
      s.settings.configKey = .ok (some w))
    (h : (writeOut (some path)).exec s = (.ok (), s')) :
    ∃ bytes, Utf8.encode w.exported = .ok bytes ∧ s'.machine.files.read
      ((Path.ofText path).resolved ⟨true, s.machine.files.home⟩) = .ok bytes := by
  have hfound : (stored errorWord).exec s = (.ok w, s) := by
    simp [stored, stored?, hstored]
  have hgiven : (some path).filter (fun t => !t.isEmpty) = some path := by
    simp [Option.filter, hpath]
  rw [writeOut, exec_bind, hfound] at h
  dsimp only at h
  rw [hgiven] at h
  obtain ⟨shown, s₁, hfile, h⟩ := exists_of_exec_bind h
  obtain ⟨past, hsaid⟩ := speaks_say ("Wrote " ++ shown) s₁
  rw [h] at hsaid
  subst hsaid
  obtain ⟨bytes, hencode, hread⟩ := read_of_writeFile hfile
  exact ⟨bytes, hencode, hread⟩

/-- A workflow that is loaded is stored. -/
theorem exec_bringIn {s : Shell} {w : Workflow} {path : Text}
    (h : Workflow.load s.machine.files (.ofText path) = .ok w) :
    (bringIn path).exec s =
      (do
        store w
        say ("Imported " ++ Text.ofNat w.actions.length ++ " action(s) for button " ++
          w.label.quoted) : Job Unit).exec s := by
  have hload : (load path).exec s = (.ok w, s) := by
    have hfiles : files.exec s = (.ok s.machine.files, s) := rfl
    simp [load, hfiles, h, Except.mapError]
  rw [bringIn, exec_bind, exec_tryCatch, hload]

end Job

end Cli

/-- **An exported workflow is brought in again.** The workflow was made in any way, and its texts
are carried over. It has bytes, which an export that ends well leaves in the file; wherever these
bytes are read from a file, the workflow is loaded, and bringing the file in stores that
workflow. -/
theorem Workflow.Made.is_brought_in_again {w : Workflow} (hmade : w.Made) (hw : w.IsCarried) :
    ∃ bytes, Utf8.encode w.exported = .ok bytes ∧
      (∀ (s s' : Cli.Shell) (path : Text), path ≠ [] →
        (⟨.file s.settings.storageFile, s.machine.files⟩ : Shelf).loadWorkflow
          s.settings.configKey = .ok (some w) →
        (Cli.Job.writeOut (some path)).exec s = (.ok (), s') →
        s'.machine.files.read ((Path.ofText path).resolved ⟨true, s.machine.files.home⟩) =
          .ok bytes) ∧
      (∀ (fs : Files) (p : Path), fs.read p = .ok bytes → Workflow.load fs p = .ok w) ∧
      ∀ (s : Cli.Shell) (path : Text), s.machine.files.read (.ofText path) = .ok bytes →
        (Cli.Job.bringIn path).exec s =
          (do
            Cli.Job.store w
            Cli.Job.say ("Imported " ++ Text.ofNat w.actions.length ++
              " action(s) for button " ++ w.label.quoted) : Cli.Job Unit).exec s := by
  obtain ⟨bytes, hencode, -⟩ := hw.isPlain.exists_bytes
  have hload (fs : Files) (p : Path) (hread : fs.read p = .ok bytes) :
      Workflow.load fs p = .ok w := by
    rw [load_of_read hread, hw.ofBytes hmade.hasDistinctNames hencode]
  refine ⟨bytes, hencode, ?_, hload, fun s path hread => Cli.Job.exec_bringIn (hload _ _ hread)⟩
  intro s s' path hpath hstored hexport
  obtain ⟨bytes', hencode', hread⟩ := Cli.Job.read_of_writeOut hpath hstored hexport
  rwa [Except.ok.inj (hencode.symm.trans hencode')]

namespace Workflow

/-- A workflow with quotes, an escape, an accent, an emoji and a separator of lines in its texts. -/
def greeting : Workflow :=
  ⟨"Grüße!", [⟨"1", .showText, some [("text", "\"Hi\"\u0007\u2028---😀"), ("größe", "")]⟩,
    ⟨"2", .closeWindow, none⟩]⟩

/-- The greeting is brought in again from every file that it is exported to. -/
theorem greeting_is_brought_in_again :
    greeting.Made ∧ greeting.IsCarried ∧ ∃ bytes, Utf8.encode greeting.exported = .ok bytes ∧
      Workflow.load ⟨[], [(["w.json"], .file bytes)], []⟩ (.ofText "w.json") = .ok greeting := by
  have hnames : greeting.HasDistinctNames := by
    unfold HasDistinctNames Action.HasDistinctNames
    decide
  have hmade : greeting.Made := .parsed (hnames.parse_dump none)
  have hcarried : greeting.IsCarried := by decide
  obtain ⟨bytes, hencode, -, hload, -⟩ := hmade.is_brought_in_again hcarried
  exact ⟨hmade, hcarried, bytes, hencode, hload _ _ (by rfl)⟩

/-- The control of the next line becomes a space. -/
example : (Yaml.read (exported ⟨"a\x85b", []⟩)).toOption.map ofDatum = some (.ok ⟨"a b", []⟩) := by
  decide +kernel

/-- A space in front of a separator is dropped. -/
example : (Yaml.read (exported ⟨"a \u2028b", []⟩)).toOption.map ofDatum =
    some (.ok ⟨"a\u2028b", []⟩) := by
  decide +kernel

/-- A parameter whose name is too long is no key. -/
example :
    (Yaml.read (exported
      ⟨"Go", [⟨"1", .alert, some [(List.replicate 1023 (.char 'k'), "")]⟩]⟩)).toOption.isNone := by
  decide +kernel

/-- **Some exported workflows are refused.** YAML does not read a text with a symbol that may not
stand in a document; JSON leaves such symbols as they are. -/
theorem IsPlain.ofBytes_of_not_isAllowed {w : Workflow} (h : w.IsPlain) {bytes : Bytes}
    (hbytes : Utf8.encode w.exported = .ok bytes) {s : Symbol} (hs : s ∈ w.exported)
    (hallowed : Yaml.isAllowed s = false) : ofBytes bytes = .error (.text .malformed) := by
  obtain ⟨bytes', hencode, htext⟩ := h.exists_bytes
  obtain rfl : bytes = bytes' := Except.ok.inj (hbytes.symm.trans hencode)
  have hall : w.exported.all Yaml.isAllowed = false := by
    rw [List.all_eq_false]
    exact ⟨s, hs, by rw [hallowed]; exact Bool.false_ne_true⟩
  rw [ofBytes, htext]
  simp [Except.mapError, bind, Except.bind, Yaml.read, Yaml.Node.ofText, hall]

/-- A workflow whose label is a control character is parsed and exported, but its file is
refused. -/
theorem delete_is_not_brought_in_again :
    Workflow.parse "\x7b\"buttonLabel\": \"\x7f\", \"actions\": []\x7d" = .ok ⟨"\x7f", []⟩ ∧
      ∃ bytes, Utf8.encode (exported ⟨"\x7f", []⟩) = .ok bytes ∧
        Workflow.load ⟨[], [(["w.json"], .file bytes)], []⟩ (.ofText "w.json") =
          .error (.text .malformed) := by
  have hplain : IsPlain ⟨"\x7f", []⟩ := ⟨by decide, by simp⟩
  have hparse : Workflow.parse (dump ⟨"\x7f", []⟩ none) = .ok ⟨"\x7f", []⟩ :=
    HasDistinctNames.parse_dump (by simp [HasDistinctNames]) none
  obtain ⟨bytes, hencode, -⟩ := hplain.exists_bytes
  refine ⟨hparse, bytes, hencode, ?_⟩
  have hread : Files.read ⟨[], [(["w.json"], .file bytes)], []⟩ (.ofText "w.json") = .ok bytes := by
    rfl
  rw [load_of_read hread]
  exact hplain.ofBytes_of_not_isAllowed hencode (s := .char '\x7f') (by decide) (by decide)

end Workflow

end PushButton
