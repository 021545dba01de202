import PushButton.Proofs.Storage.InPlace
import PushButton.Proofs.Workflow.Made
import PushButton.Settings.Basic

/-!
# A workflow that is kept

A workflow that was read or edited is read back from its text, and from a storage after it was saved
there. What is stored under other keys stays. A key that is empty stands for the key of the
settings, so keys count as others only when they stand for others, and a file takes only plain keys.
-/

namespace PushButton

/-- A workflow that was saved is found, whatever the storage held. -/
theorem Shelf.loadWorkflow_of_saveWorkflow {s s' : Shelf} {key : Text} {w : Workflow}
    {records : List Record} (hnames : w.HasDistinctNames)
    (h : s.saveWorkflow key w = (.ok (), s', records)) : s'.loadWorkflow key = .ok (some w) := by
  have hset : s.set key (w.dump none) = (.ok (), s') := by
    cases hresult : s.set key (w.dump none) with
    | mk result s₁ =>
      cases result with
      | error e => simp [saveWorkflow, setLogged, hresult] at h
      | ok _ => simp_all [saveWorkflow, setLogged]
  rw [loadWorkflow, get?_of_set hset, if_pos rfl]
  dsimp only
  rw [hnames.parse_dump none]

/-- A workflow put under a key is found there, and under every other key there is what was there
before. -/
theorem Shelf.Takes.saveWorkflow {s : Shelf} {key : Text} (h : s.Takes key) {w : Workflow}
    (hnames : w.HasDistinctNames) (hplain : w.IsPlain) :
    ∃ s' records, s.saveWorkflow key w = (.ok (), s', records) ∧
      s'.loadWorkflow key = .ok (some w) ∧
      ∀ other, other ≠ key → s'.loadWorkflow other = s.loadWorkflow other := by
  obtain ⟨items, s', hitems, hset, hitems'⟩ := h.set (hplain.dump none)
  have hget (k : Text) :
      s'.get? k = .ok (if key = k then some (w.dump none) else Json.lookup k items) := by
    rw [Shelf.get?, hitems', Except.map, Json.lookup_put]
  have hsave : ∃ records, s.saveWorkflow key w = (.ok (), s', records) := by
    simp only [Shelf.saveWorkflow, Shelf.setLogged, hset]
    exact ⟨_, rfl⟩
  obtain ⟨records, hsave⟩ := hsave
  refine ⟨s', records, hsave, loadWorkflow_of_saveWorkflow hnames hsave, ?_⟩
  intro other hother
  have hold : s.get? other = .ok (Json.lookup other items) := by
    rw [Shelf.get?, hitems, Except.map]
  rw [Shelf.loadWorkflow, Shelf.loadWorkflow, hget, hold, if_neg (Ne.symm hother)]

/-- **A workflow is kept.** A plain workflow, however it was read or edited, is read back from its
text with every indent. Every storage that takes a key keeps the workflow under the key, and keeps
what is under other keys. -/
theorem Workflow.Made.isKept {w : Workflow} (hmade : w.Made) (hplain : w.IsPlain) :
    (∀ indent : Option Int, parse (w.dump indent) = .ok w) ∧
      ∀ (settings : Settings) (s : Shelf) (key : Option Text), s.Takes (settings.workflowKey key) →
        ∃ s' records, s.saveWorkflow (settings.workflowKey key) w = (.ok (), s', records) ∧
          s'.loadWorkflow (settings.workflowKey key) = .ok (some w) ∧
          ∀ other : Option Text, settings.workflowKey other ≠ settings.workflowKey key →
            s'.loadWorkflow (settings.workflowKey other) =
              s.loadWorkflow (settings.workflowKey other) := by
  refine ⟨hmade.hasDistinctNames.parse_dump, ?_⟩
  intro settings s key htakes
  obtain ⟨s', records, hsave, hload, hothers⟩ :=
    htakes.saveWorkflow hmade.hasDistinctNames hplain
  exact ⟨s', records, hsave, hload, fun other hother => hothers _ hother⟩

/-- A workflow with one action is kept in a file that is made for it. -/
theorem Workflow.Made.isKept_in_new_file :
    let w := (Workflow.new "Go").add (Action.make "a1" .showText [("text", .text "one\r\ntwo")])
    let s : Shelf := ⟨.file ⟨false, ["store.json"]⟩, ⟨[], [], []⟩⟩
    w.Made ∧ w.IsPlain ∧ s.Takes "first" ∧ parse (w.dump (some 2)) = .ok w ∧
      ∃ s' records, s.saveWorkflow "first" w = (.ok (), s', records) ∧
        s'.loadWorkflow "first" = .ok (some w) ∧
        s'.loadWorkflow "workflowConfig" = s.loadWorkflow "workflowConfig" := by
  intro w s
  have hmade : w.Made := .added "a1" .showText (by decide) (.new "Go")
  have hplain : w.IsPlain := by
    refine ⟨by decide, ?_⟩
    intro a ha
    obtain rfl := List.mem_singleton.mp ha
    refine ⟨by decide, ?_⟩
    rintro ps ⟨rfl⟩
    decide
  have htakes : s.Takes "first" := ⟨⟨⟨[], [], []⟩, rfl, rfl, rfl⟩, Or.inl rfl, by decide⟩
  obtain ⟨hparse, hkept⟩ := Workflow.Made.isKept hmade hplain
  obtain ⟨s', records, hsave, hload, hothers⟩ := hkept {} s (some "first") htakes
  exact ⟨hmade, hplain, htakes, hparse (some 2), s', records, hsave, hload,
    hothers (some "workflowConfig") (by decide)⟩

/-- Not under every key is a workflow kept. What is stored under the key of the settings does not
stay when a workflow is saved under the empty key, although that is another key; and a file does not
take a key that is half of a surrogate pair. -/
theorem Shelf.not_kept_under_every_key :
    (¬ ∀ (settings : Settings) (s : Shelf) (key other : Option Text) (w : Workflow),
      w.Made → w.IsPlain → s.Takes (settings.workflowKey key) → other ≠ key →
        (s.saveWorkflow (settings.workflowKey key) w).2.1.loadWorkflow
            (settings.workflowKey other) =
          s.loadWorkflow (settings.workflowKey other)) ∧
      ¬ ∀ (settings : Settings) (fs : Files) (path : Path) (key : Option Text) (w : Workflow),
        w.Made → w.IsPlain → fs.IsWritable path → Storage.HoldsPlainObject fs path →
          ((⟨.file path, fs⟩ : Shelf).saveWorkflow (settings.workflowKey key) w).1 = .ok () := by
  let w := Workflow.new "Go"
  have hplain : w.IsPlain := ⟨by decide, fun a ha => absurd ha (by simp [w, Workflow.new])⟩
  constructor
  · intro h
    let s : Shelf := ⟨.memory [], ⟨[], [], []⟩⟩
    have htakes : s.Takes "workflowConfig" := trivial
    have hsame := h {} s (some []) (some "workflowConfig") w (.new "Go") hplain htakes (by decide)
    obtain ⟨s', records, hsave, hload, -⟩ :=
      htakes.saveWorkflow (Workflow.Made.new "Go").hasDistinctNames hplain
    have hkey : Settings.workflowKey {} (some []) = "workflowConfig" := rfl
    have hother : Settings.workflowKey {} (some "workflowConfig") = "workflowConfig" := rfl
    have hbefore : s.loadWorkflow "workflowConfig" = .ok none := rfl
    rw [hkey, hother, hsave, hload, hbefore] at hsame
    cases hsame
  · intro h
    let half : Text := [.lone 0]
    have hsaved := h {} ⟨[], [], []⟩ ⟨false, ["store.json"]⟩ (some half) w (.new "Go") hplain
      ⟨⟨[], [], []⟩, rfl, rfl, rfl⟩ (Or.inl rfl)
    have hrefused : ∃ e, ((⟨.file ⟨false, ["store.json"]⟩, ⟨[], [], []⟩⟩ : Shelf).saveWorkflow
        (Settings.workflowKey {} (some half)) w).1 = .error e := ⟨_, rfl⟩
    obtain ⟨e, hrefused⟩ := hrefused
    rw [hrefused] at hsaved
    cases hsaved

end PushButton
