import PushButton.Proofs.Yaml.Building
import PushButton.Proofs.Yaml.Flaws
import PushButton.Workflow.Loaded

/-!
# Loading any file

Whatever bytes a file holds, loading it gives a workflow or finds the data to be at fault, as long
as the document is sound: no escape has a number that is far too large, nothing is nested too
deeply, and the scalars fit their types. Main statement: the law for all files. A scalar that is
given a type which it does not fit makes loading break down instead.
-/

namespace PushButton

namespace Yaml

/-- The type is the one that a plain scalar gets from its text. -/
def Tag.isFoundFrom (tag : Tag) (t : Text) : Bool :=
  tag = .ofPlain t && t.getLast? ≠ some (.char '\n') &&
    (tag ≠ .float || decide (t.count (.char ':') < maxGroups))

/-- The node stands for a text that its type was found from, or that fits its type; what stands for
no text at all is malformed. -/
def Node.fits (n : Node) : Bool :=
  match scalarText 0 n with
  | .error f => f = .malformed
  | .ok t =>
    match n, n.tag with
    | .mapping _ _, .timestamp => false
    | _, tag => tag.isFoundFrom t || tag.admits t

/-- Nothing in the text makes loading break down: the numbers of its escapes are not far too large,
its nodes and its parameters are not nested too deeply, and its scalars fit their types. -/
def isSound (t : Text) : Bool :=
  !hasFarEscape t &&
    (match Node.ofText t with
      | .error f => decide (f ≠ .tooDeep)
      | .ok none => true
      | .ok (some n) => n.parts.all fun m => m.tag.isCollection || m.fits) &&
    match read t with
      | .error _ => true
      | .ok d => !d.hasDeepParameter

/-- The type that is found from a text fits it. -/
theorem Tag.admits_of_isFoundFrom {tag : Tag} {t : Text} (h : tag.isFoundFrom t = true) :
    tag.admits t = true := by
  unfold isFoundFrom at h
  simp only [Bool.and_eq_true, Bool.or_eq_true, decide_eq_true_eq] at h
  obtain ⟨⟨rfl, hend⟩, hgroups⟩ := h
  exact admits_ofPlain hend fun hfloat => hgroups.resolve_left (not_not_intro hfloat)

/-- What stands for no text is malformed where it is not nested too deeply. -/
theorem Node.fair_of_fits {n : Node} (h : n.fits = true) : Fair (leafValue n) := by
  unfold Node.fits at h
  unfold leafValue
  cases htext : scalarText 0 n with
  | error f =>
    rw [htext] at h
    obtain rfl := of_decide_eq_true h
    rfl
  | ok t =>
    rw [htext] at h
    dsimp only at h
    change Gives _ _ (match n, n.tag with
      | .mapping _ _, .timestamp => .error (.conversion .mappedTimestamp)
      | _, tag => scalarDatum tag t)
    split at h
    · cases h
    · refine fair_scalarDatum ?_
      obtain hfound | hadmits := Bool.or_eq_true_iff.mp h
      · exact Tag.admits_of_isFoundFrom hfound
      · exact hadmits

/-- A text whose escapes are not far too large has a node, is at fault or is nested too deeply. -/
theorem isInvalid_of_ofText {t : Text} {f : Flaw} (hescapes : hasFarEscape t = false)
    (hf : f ≠ .tooDeep) (hnode : Node.ofText t = .error f) : f.isInvalid = true := by
  obtain hending | rfl | rfl := flaw_of_ofText hnode
  · exact isInvalid_of_tokens hescapes hending
  · rfl
  · exact absurd rfl hf

/-- A tree of scalars that fit their types is built or is at fault. -/
theorem Node.flawsIn_build_of_fits {n : Node}
    (h : n.parts.all (fun m => m.tag.isCollection || m.fits) = true) :
    Yaml.FlawsIn (fun f => f.isInvalid = true) (build 0 n) := by
  refine flawsIn_build (E := fun f => f.isInvalid = true) rfl n 0 fun m hm htag => ?_
  have hfits := List.all_eq_true.mp h m hm
  rw [htag, Bool.false_or] at hfits
  exact Node.fair_of_fits hfits

/-- A sound text holds data or is at fault. -/
theorem gives_read {t : Text} (ht : isSound t = true) :
    Gives (fun f : Flaw => f.isInvalid = true) (fun d => d.hasDeepParameter = false) (read t) := by
  unfold isSound at ht
  rw [Bool.and_eq_true, Bool.and_eq_true] at ht
  obtain ⟨⟨hescapes, hnodes⟩, hparameters⟩ := ht
  have hescapes : hasFarEscape t = false := by simpa using hescapes
  cases hread : read t with
  | ok d =>
    rw [hread] at hparameters
    exact (by simpa using hparameters : d.hasDeepParameter = false)
  | error f =>
    change f.isInvalid = true
    unfold read at hread
    cases hnode : Node.ofText t with
    | error f' =>
      rw [hnode] at hread hnodes
      obtain rfl : f' = f := Except.error.inj hread
      exact isInvalid_of_ofText hescapes (of_decide_eq_true hnodes) hnode
    | ok found =>
      rw [hnode] at hread hnodes
      cases found with
      | none => cases hread
      | some n =>
        have hbuild := Node.flawsIn_build_of_fits hnodes
        have herror : (build 0 n).mapError (·.2) = .error f := hread
        cases hdata : build 0 n with
        | error e =>
          rw [hdata] at hbuild herror
          cases herror
          exact hbuild
        | ok d =>
          rw [hdata] at herror
          cases herror

end Yaml

/-- A fault of the data of a text is an invalid failure. -/
theorem LoadError.isInvalid_of_text {f : Yaml.Flaw} (p : Path) (hf : f.isInvalid = true) :
    ((LoadError.text f).failure p).kind.isInvalid = true := by
  cases f with
  | malformed => rfl
  | tooDeep => cases hf
  | conversion c => exact hf

namespace Workflow

/-- A file that can be read is there. -/
theorem has_of_read {fs : Files} {p : Path} {bytes : Bytes} (h : fs.read p = .ok bytes) :
    fs.has p = true := by
  unfold Files.read at h
  unfold Files.has Files.entry?
  split at h
  · cases h
  · rename_i l hlocate
    rw [hlocate]
    dsimp only
    split at h
    · rename_i hentry
      rw [hentry]
      rfl
    · cases h
    · cases h

/-- **A file holds a workflow or invalid data.** Whatever the bytes of a file are: when they are
the bytes of a text, let the text be sound. Then loading the file gives a workflow, or it fails
because the data are invalid, and in no other way. -/
theorem loads_or_refuses {fs : Files} {p : Path} {bytes : Bytes} (hread : fs.read p = .ok bytes)
    (hsound : ∀ t, Files.textOf bytes = .ok t → Yaml.isSound t = true) :
    (∃ w, load fs p = .ok w) ∨
      ∃ e, load fs p = .error e ∧ (e.failure p).kind.isInvalid = true := by
  have hload : load fs p = ofBytes bytes := by
    unfold load
    rw [has_of_read hread, hread]
    rfl
  have hgives : Gives (fun e : LoadError => (e.failure p).kind.isInvalid = true)
      (fun _ => True) (ofBytes bytes) := by
    unfold ofBytes
    cases htext : Files.textOf bytes with
    | error e => rfl
    | ok t =>
      have hdata := Yaml.gives_read (hsound t htext)
      change Gives _ _ ((Yaml.read t).mapError .text >>= ofDocument)
      cases hdatum : Yaml.read t with
      | error f =>
        rw [hdatum] at hdata
        exact LoadError.isInvalid_of_text p hdata
      | ok d =>
        rw [hdatum] at hdata
        have hshallow : d.hasDeepParameter = false := hdata
        change Gives _ _ (ofDocument d)
        unfold ofDocument
        rw [hshallow, if_neg Bool.false_ne_true]
        cases ofDatum d with
        | error r => rfl
        | ok w => trivial
  rw [hload]
  cases hresult : ofBytes bytes with
  | error e =>
    rw [hresult] at hgives
    exact .inr ⟨e, rfl, hgives⟩
  | ok w => exact .inl ⟨w, rfl⟩

/-- A label with a type that it fits, an escape, and a day in a month that does not exist: the text
is sound, and its data are invalid. -/
theorem loads_or_refuses_month :
    let text : Text := "label: !!int 0x_10\nactions: [\"\\u00e9\", !!timestamp 2020-13-01]\n"
    let bytes := (Utf8.encode text).toOption.getD []
    let fs : Files := ⟨[], [(["w.yaml"], .file bytes)], []⟩
    fs.read (.ofText "w.yaml") = .ok bytes ∧
      (∀ t, Files.textOf bytes = .ok t → Yaml.isSound t = true) ∧
      ((∃ w, load fs (.ofText "w.yaml") = .ok w) ∨ ∃ e, load fs (.ofText "w.yaml") = .error e ∧
        (e.failure (.ofText "w.yaml")).kind.isInvalid = true) := by
  intro text bytes fs
  have hread : fs.read (.ofText "w.yaml") = .ok bytes := by decide +kernel
  have hsound : ∀ t, Files.textOf bytes = .ok t → Yaml.isSound t = true := by
    have htext : Files.textOf bytes = .ok text := by decide +kernel
    intro t ht
    cases htext.symm.trans ht
    decide +kernel
  exact ⟨hread, hsound, loads_or_refuses hread hsound⟩

/-- Not every file holds a workflow or invalid data: a label that is given the type of truth values
and is none makes loading break down. -/
theorem not_every_file_loads_or_refuses :
    ¬ ∀ (fs : Files) (p : Path) (bytes : Bytes), fs.read p = .ok bytes →
      (∃ w, load fs p = .ok w) ∨
        ∃ e, load fs p = .error e ∧ (e.failure p).kind.isInvalid = true := by
  intro hall
  let bytes := (Utf8.encode "buttonLabel: !!bool maybe\n").toOption.getD []
  let fs : Files := ⟨[], [(["w.yaml"], .file bytes)], []⟩
  have hload : load fs (.ofText "w.yaml") = .error (.text (.conversion (.bool "maybe"))) := by
    decide +kernel
  obtain ⟨w, hw⟩ | ⟨e, he, hinvalid⟩ := hall fs (.ofText "w.yaml") bytes (by decide +kernel)
  · cases hload.symm.trans hw
  · cases hload.symm.trans he
    exact absurd hinvalid (by decide)

end Workflow

end PushButton
