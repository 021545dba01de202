import PushButton.Proofs.Text.Plain
import PushButton.Workflow.Loaded

/-!
# Messages about workflows

Whatever a document or a file holds, what is reported about it can be printed. A message tells
positions and numbers and names the fields of the format, and it repeats what the document holds
between quotes only. So it is plain if the name of the source is.
-/

namespace PushButton

/-! ## Data that cannot be read -/

/-- The message about an integer with too many digits is plain. -/
@[simp] theorem Text.isPlain_tooManyDigits (count : Option Nat) :
    (tooManyDigits count).IsPlain := by
  cases count with
  | none => simp [tooManyDigits]
  | some n => simp [tooManyDigits]

/-- The message about bytes that are no text is plain. -/
theorem Utf8.DecodeError.isPlain_message (e : DecodeError) : e.message.IsPlain := by
  have hdefect : e.defect.message.IsPlain := by
    cases e.defect <;> exact Text.isPlain_ofString _
  unfold message
  split
  · simp [hdefect]
  · simp [hdefect]

/-- The message about a scalar that cannot be converted is plain. -/
theorem Yaml.Conversion.isPlain_message (c : Conversion) : c.message.IsPlain := by
  cases c with
  | time part =>
    cases part with
    | offset minutes =>
      have hparts : (Datum.spanQuoted minutes).IsPlain := by
        have hjoin : (Text.join ", " ((if minutes / 1440 = 0 then []
            else ["days=" ++ Text.ofInt (minutes / 1440)]) ++
              if minutes % 1440 * 60 = 0 then []
              else ["seconds=" ++ Text.ofInt (minutes % 1440 * 60)])).IsPlain := by
          refine Text.isPlain_join (Text.isPlain_ofString ", ") fun t ht => ?_
          rcases List.mem_append.mp ht with ht | ht
          · split at ht
            · cases ht
            · rw [List.mem_singleton.mp ht]
              simp
          · split at ht
            · cases ht
            · rw [List.mem_singleton.mp ht]
              simp
        simp only [Datum.spanQuoted, Text.isPlain_append, Text.isPlain_ofString, hjoin, and_self]
      simp [message, TimePart.message, hparts]
    | _ => exact Text.isPlain_ofString _
  | codePoint n =>
    have hwords : ∀ words : Bool, (if words = true then
        Text.ofString "chr() arg not in range(0x110000)"
      else Text.ofString "Python int too large to convert to C int").IsPlain := by decide +kernel
    simpa [message] using hwords (decide (n < 0x80000000))
  | _ => simp [message]

/-! ## Data that describe no workflow -/

/-- A complaint is plain. -/
theorem Complaint.isPlain_message (c : Complaint) : c.message.IsPlain := by
  cases c with
  | notKind => decide +kernel
  | tooManyDigits => simp [message]
  | _ => exact Text.isPlain_ofString _

/-- A problem is plain when the way to the part is. -/
theorem Problem.isPlain_message {p : Problem} (h : ∀ step ∈ p.place, step.shown.IsPlain) :
    p.message.IsPlain := by
  have hplace : (Text.join "." (p.place.map Place.shown)).IsPlain := by
    refine Text.isPlain_join (Text.isPlain_ofString ".") fun t ht => ?_
    obtain ⟨step, hstep, rfl⟩ := List.mem_map.mp ht
    exact h step hstep
  simp [message, hplace, p.complaint.isPlain_message]

namespace Checked

variable {α β : Type}

/-- The ways to what a check has found lead through plain names. -/
def NamesPlainly (c : Checked α) : Prop :=
  ∀ ps, c = .error ps → ∀ p ∈ ps, ∀ step ∈ p.place, step.shown.IsPlain

/-- A value names nothing. -/
theorem NamesPlainly.ok (x : α) : NamesPlainly (.ok x) := nofun

/-- A complaint about the part itself names nothing. -/
theorem NamesPlainly.refuse (c : Complaint) : NamesPlainly (refuse c : Checked α) := by
  rintro ps ⟨⟩ p hp
  rw [List.mem_singleton.mp hp]
  nofun

/-- A check of a part with a plain name. -/
theorem NamesPlainly.under {c : Checked α} (h : c.NamesPlainly) {place : Place}
    (hplace : place.shown.IsPlain) : (Checked.under place c).NamesPlainly := by
  cases c with
  | ok x => exact .ok x
  | error ps =>
    rintro qs ⟨⟩ q hq
    obtain ⟨p, hp, rfl⟩ := List.mem_map.mp hq
    exact List.forall_mem_cons.mpr ⟨hplace, h ps rfl p hp⟩

/-- Two checks. -/
theorem NamesPlainly.both {c : Checked α} {c' : Checked β} (h : c.NamesPlainly)
    (h' : c'.NamesPlainly) : (Checked.both c c').NamesPlainly := by
  cases c with
  | ok x =>
    cases c' with
    | ok y => exact .ok _
    | error qs =>
      rintro _ ⟨⟩
      exact h' qs rfl
  | error ps =>
    cases c' with
    | ok y =>
      rintro _ ⟨⟩
      exact h ps rfl
    | error qs =>
      rintro _ ⟨⟩ p hp
      rcases List.mem_append.mp hp with hp | hp
      · exact h ps rfl p hp
      · exact h' qs rfl p hp

/-- The value of a check is turned into another one. -/
theorem NamesPlainly.map {c : Checked α} (h : c.NamesPlainly) (f : α → β) :
    NamesPlainly (c.map f) := by
  cases c with
  | ok x => exact .ok (f x)
  | error ps =>
    rintro _ ⟨⟩
    exact h ps rfl

/-- The items of a list are checked one after the other. -/
theorem NamesPlainly.items {check : α → Checked β} (h : ∀ x, (check x).NamesPlainly)
    (xs : List α) (index : Nat) : (Checked.items check index xs).NamesPlainly := by
  induction xs generalizing index with
  | nil => exact .ok []
  | cons x rest ih =>
    have hindex : (Place.index index).shown.IsPlain := Text.isPlain_ofNat index
    exact (((h x).under hindex).both (ih (index + 1))).map _

/-- A field with a plain name that has to be there. -/
theorem NamesPlainly.required {name : Text} (hname : name.IsPlain) {check : Datum → Checked α}
    (h : ∀ d, (check d).NamesPlainly) (entries : List (Datum × Datum)) :
    (Checked.required name check entries).NamesPlainly := by
  refine NamesPlainly.under ?_ hname
  split
  · exact h _
  · exact .refuse _

/-- A field with a plain name and a default. -/
theorem NamesPlainly.optional {name : Text} (hname : name.IsPlain) {check : Datum → Checked α}
    (h : ∀ d, (check d).NamesPlainly) (default : α) (entries : List (Datum × Datum)) :
    (Checked.optional name check default entries).NamesPlainly := by
  unfold Checked.optional
  split
  · exact (h _).under hname
  · exact .ok default

/-- The check of a text names nothing. -/
theorem namesPlainly_text (d : Datum) : (text d).NamesPlainly := by
  unfold text
  split
  · exact .ok _
  · split
    · exact .ok _
    · exact .refuse _
  · exact .refuse _

/-- The check of an id names nothing. -/
theorem namesPlainly_id (d : Datum) : (id d).NamesPlainly := by
  unfold id
  split
  · split
    · exact .refuse _
    · exact .ok _
  · exact .ok _
  · exact namesPlainly_text _

/-- The check of the name of a kind names nothing. -/
theorem namesPlainly_kind (d : Datum) : (kind d).NamesPlainly := by
  unfold kind
  split
  · split
    · split
      · exact .ok _
      · exact .refuse _
    · exact .refuse _
  · split
    · exact .ok _
    · exact .refuse _
  · exact .refuse _

/-- The check of parameters names nothing. -/
theorem namesPlainly_params (d : Datum) : (params d).NamesPlainly := by
  unfold params
  split
  · exact .ok _
  · split
    · exact .refuse _
    · exact .ok _
  · exact .refuse _

/-- The check of an action names fields of the format. -/
theorem namesPlainly_action (d : Datum) : (action d).NamesPlainly := by
  unfold action
  split
  · exact ((NamesPlainly.required (Text.isPlain_ofString _) namesPlainly_id _).both
      ((NamesPlainly.required (Text.isPlain_ofString _) namesPlainly_kind _).both
        (.optional (Text.isPlain_ofString _) namesPlainly_params none _))).map _
  · exact .refuse _

/-- The check of the actions of a workflow names fields of the format. -/
theorem namesPlainly_actions (d : Datum) : (actions d).NamesPlainly := by
  unfold actions
  split
  · exact .items namesPlainly_action _ 0
  · exact .items namesPlainly_action _ 0
  · exact .refuse _

/-- The check of a label names a field of the format. -/
theorem namesPlainly_label (entries : List (Datum × Datum)) : (label entries).NamesPlainly := by
  unfold label
  split
  · exact .optional (Text.isPlain_ofString _) namesPlainly_text _ _
  · exact .optional (Text.isPlain_ofString _) namesPlainly_text _ _

end Checked

/-- The message about a document that describes no workflow is plain. -/
theorem Workflow.isPlain_message_of_ofDatum {d : Datum} {r : Rejection} (h : ofDatum d = .error r)
    {source : Text} (hsource : source.IsPlain) : (r.message source).IsPlain := by
  cases r with
  | notMapping => simp [Rejection.message, hsource]
  | problems ps =>
    have hproblems : ∀ p ∈ ps, p.message.IsPlain := by
      cases d with
      | map entries =>
        have hnames := (Checked.namesPlainly_label entries).both
          (Checked.NamesPlainly.optional (Text.isPlain_ofString "actions")
            Checked.namesPlainly_actions [] entries)
        rw [ofDatum] at h
        generalize Checked.both (Checked.label entries) _ = c at h hnames
        cases c with
        | ok x => cases h
        | error qs =>
          cases h
          exact fun p hp => Problem.isPlain_message (hnames ps rfl p hp)
      | _ => cases h
    refine Text.isPlain_join (Text.isPlain_ofString "\n") (List.forall_mem_cons.mpr ⟨?_, ?_⟩)
    · simp [hsource]
    · intro line hline
      obtain ⟨p, hp, rfl⟩ := List.mem_map.mp hline
      simp [hproblems p hp]

/-- The message about a value that describes no workflow is plain. -/
theorem Workflow.isPlain_message_of_ofJson {v : Json} {r : Rejection} (h : ofJson v = .error r)
    {source : Text} (hsource : source.IsPlain) : (r.message source).IsPlain :=
  isPlain_message_of_ofDatum h hsource

/-! ## Files that hold no workflow -/

/-- A refused operation on a path is told in a plain message, with the path between quotes. -/
theorem FileError.isPlain_message (e : FileError) : e.message.IsPlain := by
  have hfault : e.fault.message.IsPlain := by
    cases e.fault <;> exact Text.isPlain_ofString _
  unfold message
  dsimp only
  split
  · simp [hfault]
  · simp [hfault]

/-- A file is loaded from its bytes; where there is none, or a directory, it is refused. -/
theorem Workflow.load_eq (fs : Files) (p : Path) : load fs p =
    match fs.entry? p with
    | some (.file bytes) => ofBytes bytes
    | some .directory => .error (.file (Files.fault p .isDirectory))
    | none => .error .missing := by
  unfold load Files.has
  cases hentry : fs.entry? p with
  | none => rfl
  | some entry =>
    obtain ⟨l, hlocate, hl⟩ : ∃ l, fs.locate p = .ok l ∧ fs.at? l = some entry := by
      unfold Files.entry? at hentry
      split at hentry
      · next l hlocate => exact ⟨l, hlocate, hentry⟩
      · cases hentry
    unfold Files.read
    rw [hlocate]
    dsimp only
    cases entry with
    | file bytes =>
      rw [hl]
      rfl
    | directory =>
      rw [hl]
      rfl

/-- Bytes that hold no workflow are rejected because of the data of their document. -/
theorem Workflow.exists_of_ofBytes {bytes : Bytes} {r : Rejection}
    (h : ofBytes bytes = .error (.rejected r)) : ∃ d, ofDatum d = .error r := by
  unfold ofBytes ofDocument at h
  cases htext : Files.textOf bytes with
  | error e =>
    rw [htext] at h
    cases h
  | ok t =>
    rw [htext] at h
    cases hdata : Yaml.read t with
    | error f =>
      change (Yaml.read t).mapError LoadError.text >>= _ = _ at h
      rw [hdata] at h
      cases h
    | ok d =>
      change (Yaml.read t).mapError LoadError.text >>= _ = _ at h
      rw [hdata] at h
      refine ⟨d, ?_⟩
      change (if d.hasDeepParameter = true then _ else _) = _ at h
      split at h
      · cases h
      · cases hdatum : ofDatum d with
        | error r' =>
          rw [hdatum] at h
          cases h
          rfl
        | ok w =>
          rw [hdatum] at h
          cases h

/-- The message about a file that holds no workflow is plain if its path is. -/
theorem Workflow.isPlain_message_of_load {fs : Files} {p : Path} {e : LoadError}
    (hload : load fs p = .error e) (hp : p.shown.IsPlain) : (e.failure p).message.IsPlain := by
  cases e with
  | missing => simp [LoadError.failure, hp]
  | file e => exact e.isPlain_message
  | bytes e => exact e.isPlain_message
  | text flaw =>
    cases flaw with
    | malformed => simp [LoadError.failure, hp]
    | tooDeep => exact Text.isPlain_ofString _
    | conversion c => exact c.isPlain_message
  | deepParameter => exact Text.isPlain_ofString _
  | rejected r =>
    rw [load_eq] at hload
    split at hload
    · obtain ⟨d, hd⟩ := exists_of_ofBytes hload
      exact isPlain_message_of_ofDatum hd (by simp [hp])
    · cases hload
    · cases hload

end PushButton
