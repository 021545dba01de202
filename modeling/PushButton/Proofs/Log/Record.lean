import PushButton.Log.Journal
import PushButton.Proofs.Json.Symbols
import PushButton.Proofs.Json.Written
import PushButton.Proofs.Text.Plain

/-!
# A record in one line

The program makes records in four contexts: outside of runs, in a run, in a step of a run, and about
an action. No key of these contexts is the name of a part of a record. So nothing is hidden in the
line of a record: read as JSON, it gives the parts back and the value under each key.
-/

namespace PushButton

/-! ## Contexts -/

namespace Context

/-- The contexts in which the program makes records. -/
inductive IsUsed : Context → Prop
  /-- Outside of runs. -/
  | outside : IsUsed []
  /-- In a run. -/
  | run (id : Text) : IsUsed [("run_id", .text id)]
  /-- In a step of a run, which applies an action of a kind. -/
  | step (id : Text) (position : Int) (kind : Text) :
      IsUsed [("run_id", .text id), ("step_index", .int position), ("action", .text kind)]
  /-- About an action of a kind. -/
  | action (kind id : Text) : IsUsed [("action", .text kind), ("action_id", .text id)]

/-- The keys of the contexts in which the program makes records. -/
def usedKeys : List (List Text) :=
  [[], ["run_id"], ["run_id", "step_index", "action"], ["action", "action_id"]]

variable {c : Context}

/-- A context that is used has the keys of one. -/
theorem IsUsed.keys_mem (h : c.IsUsed) : Json.keys c ∈ usedKeys := by
  cases h <;> simp [Json.keys, usedKeys]

/-- A context that is used holds texts and integers. -/
theorem IsUsed.text_or_int (h : c.IsUsed) {f : Text × Json} (hf : f ∈ c) :
    (∃ t, f.2 = .text t) ∨ ∃ n, f.2 = .int n := by
  cases h <;> simp at hf <;> rcases hf with rfl | rfl | rfl <;> simp

end Context

namespace Record

/-- The names of the parts of a record in its line. -/
def partKeys : List Text := ["ts", "level", "logger", "msg"]

/-- The parts of a record in its line. -/
def parts (r : Record) (time : Moment) : List (Text × Json) :=
  [("ts", .text time.stamp), ("level", .text r.level.name), ("logger", .text r.logger),
    ("msg", .text r.message)]

/-- The parts have their names. -/
theorem keys_parts (r : Record) (time : Moment) : Json.keys (r.parts time) = partKeys := rfl

end Record

/-- **No key hides a part of a record.** No context in which the program makes records has a key
that is the name of a part of a record, and none has a key twice. -/
theorem Context.IsUsed.nodup {c : Context} (h : c.IsUsed) :
    (Record.partKeys ++ Json.keys c).Nodup := by
  have hall : ∀ keys ∈ usedKeys, (Record.partKeys ++ keys).Nodup := by decide
  exact hall _ h.keys_mem

/-! ## Records -/

namespace Record

/-- A record as the program makes it: in one of its contexts, by one of its parts, and without a
failure. -/
structure IsUsual (r : Record) : Prop where
  /-- The context is used. -/
  context : r.context.IsUsed
  /-- The name of the part of the program is plain. -/
  logger : r.logger.IsPlain
  /-- No failure is told about. -/
  failure : r.failure = none

/-- A value in a context can be read back: a text in which no half of a surrogate pair stands
alone, and an integer that has no more digits than are read. The integers in contexts are positions
of steps: only workflows of inconceivable length have some with more digits. -/
def isReadable : Json → Bool
  | .text t => t.IsPlain
  | .int n => (Text.ofNat n.natAbs).length ≤ Text.maxDigits
  | _ => true

/-- A record in which no half of a surrogate pair stands alone and no integer has more digits than
are read. -/
structure IsPlain (r : Record) : Prop where
  /-- The message is plain. -/
  message : r.message.IsPlain
  /-- The values in the context can be read back. -/
  context : ∀ f ∈ r.context, isReadable f.2 = true

instance (r : Record) : Decidable r.IsPlain :=
  decidable_of_iff (r.message.IsPlain ∧ ∀ f ∈ r.context, isReadable f.2 = true)
    ⟨fun ⟨hmessage, hcontext⟩ => ⟨hmessage, hcontext⟩, fun ⟨hmessage, hcontext⟩ =>
      ⟨hmessage, hcontext⟩⟩

/-- A JSON value tells a record: it has the parts of the record and, under each key of the context,
its value. -/
structure IsToldBy (r : Record) (v : Json) : Prop where
  /-- The level. -/
  level : v.field? "level" = some (.text r.level.name)
  /-- The name of the part of the program. -/
  logger : v.field? "logger" = some (.text r.logger)
  /-- The message. -/
  message : v.field? "msg" = some (.text r.message)
  /-- The context. -/
  context : ∀ f ∈ r.context, v.field? f.1 = some f.2

/-- Bytes tell some records: they are one line for each of them, in order, which a line feed ends.
There is no other line feed in the line, and it is read as JSON that tells the record. -/
def AreToldBy (rs : List Record) (bytes : Bytes) : Prop :=
  ∃ lines : List Text, Utf8.decode bytes = .ok (lines.flatMap fun line => line ++ "\n") ∧
    List.Forall₂ (fun r line =>
      .char '\n' ∉ line ∧ ∃ v, Json.parse line = .ok v ∧ IsToldBy r v) rs lines

variable {r : Record}

/-- The line of a usual record has its parts and then its context. -/
theorem IsUsual.fields_eq (h : r.IsUsual) (time : Moment) :
    r.fields time = r.parts time ++ r.context := by
  have hkeys : (Json.keys (r.parts time ++ r.context)).Nodup := by
    rw [Json.keys, List.map_append]
    exact h.context.nodup
  have hextend : Context.extend (r.parts time) r.context = r.parts time ++ r.context :=
    Json.foldl_put_of_nodup hkeys
  unfold fields
  rw [h.failure]
  exact hextend

/-- What stands under a key in the line of a usual record. -/
theorem IsUsual.lookup_fields (h : r.IsUsual) (time : Moment) {f : Text × Json}
    (hf : f ∈ r.parts time ++ r.context) : Json.lookup f.1 (r.fields time) = some f.2 := by
  have hkeys : (Json.keys (r.parts time ++ r.context)).Nodup := by
    rw [Json.keys, List.map_append]
    exact h.context.nodup
  rw [h.fields_eq]
  exact Json.lookup_of_mem hkeys hf

/-- The line of a usual record tells it. -/
theorem IsUsual.isToldBy (h : r.IsUsual) (time : Moment) :
    r.IsToldBy (.object (r.fields time)) where
  level := h.lookup_fields time (f := ("level", .text r.level.name)) (by simp [parts])
  logger := h.lookup_fields time (f := ("logger", .text r.logger)) (by simp [parts])
  message := h.lookup_fields time (f := ("msg", .text r.message)) (by simp [parts])
  context f hf := h.lookup_fields time (List.mem_append_right _ hf)

/-- The name of a level is plain. -/
theorem isPlain_name (l : Level) : l.name.IsPlain := by cases l <;> decide

/-- The time of a record is plain. -/
theorem isPlain_stamp (m : Moment) : m.stamp.IsPlain := by
  have hpadded (width n : Nat) : (Text.padded width n).IsPlain :=
    Text.isPlain_append.mpr ⟨Text.isPlain_replicate _ _, Text.isPlain_ofNat _⟩
  have hoffset : ((m.offset.map Moment.offsetShown).getD []).IsPlain := by
    cases m.offset with
    | none => exact Text.isPlain_nil
    | some minutes =>
      simp only [Option.map_some, Option.getD_some, Moment.offsetShown]
      split <;> simp [hpadded]
  simp [Moment.stamp, Date.shown, Moment.clockShown, hpadded, hoffset]

section Plain

variable (h : r.IsUsual) (hplain : r.IsPlain) (time : Moment)

include h hplain

/-- The line of a plain record is exact. -/
theorem IsUsual.isExact_fields : (Json.object (r.fields time)).IsExact Json.maxDepth := by
  rw [h.fields_eq]
  refine .object ?_ fun f hf => ?_
  · rw [Json.keys, List.map_append]
    exact h.context.nodup
  · obtain hf | hf := List.mem_append.mp hf
    · simp only [parts, List.mem_cons, List.not_mem_nil, or_false] at hf
      obtain rfl | rfl | rfl | rfl := hf <;> exact .text _
    · have hreadable := hplain.context f hf
      obtain ⟨t, ht⟩ | ⟨n, hn⟩ := h.context.text_or_int hf
      · exact ht ▸ .text t
      · rw [hn] at hreadable ⊢
        exact .int (of_decide_eq_true hreadable)

/-- The texts in the line of a plain record are plain. -/
theorem IsUsual.allTexts_fields : (Json.object (r.fields time)).AllTexts Text.IsPlain := by
  have hkeys : ∀ keys ∈ Context.usedKeys, ∀ key ∈ partKeys ++ keys, key.IsPlain := by decide
  rw [h.fields_eq]
  refine .object (fun f hf => ?_) fun f hf => ?_
  · refine hkeys _ h.context.keys_mem f.1 ?_
    rw [← keys_parts r time, Json.keys, Json.keys, ← List.map_append]
    exact List.mem_map_of_mem hf
  · obtain hf | hf := List.mem_append.mp hf
    · simp only [parts, List.mem_cons, List.not_mem_nil, or_false] at hf
      obtain rfl | rfl | rfl | rfl := hf
      · exact .text (isPlain_stamp time)
      · exact .text (isPlain_name r.level)
      · exact .text h.logger
      · exact .text hplain.message
    · have hreadable := hplain.context f hf
      obtain ⟨t, ht⟩ | ⟨n, hn⟩ := h.context.text_or_int hf
      · rw [ht] at hreadable ⊢
        exact .text (of_decide_eq_true hreadable)
      · exact hn ▸ .int n

/-- **A line tells its record.** The line of a plain record is read as JSON that tells the record,
and there is no line feed in it. -/
theorem IsUsual.parse_jsonLine : Symbol.char '\n' ∉ r.jsonLine time ∧
    ∃ v, Json.parse (r.jsonLine time) = .ok v ∧ r.IsToldBy v :=
  ⟨Json.notMem_line _, _, Json.parse_write rfl (h.isExact_fields hplain time), h.isToldBy time⟩

/-- The bytes of a plain record are those of its line. -/
theorem IsUsual.encode_line :
    Utf8.encode (r.jsonLine time ++ "\n") = .ok (Files.recordBytes time r) := by
  have hline : (r.jsonLine time).IsPlain := (h.allTexts_fields hplain time).isPlain_writeAt rfl 1
  obtain ⟨bytes, hencode, -⟩ :=
    Utf8.exists_encode_decode (Text.isPlain_append.mpr ⟨hline, Text.isPlain_ofString "\n"⟩)
  have hbytes : Files.recordBytes time r = bytes := by
    unfold Files.recordBytes
    change (Utf8.encode (r.jsonLine time ++ "\n")).toOption.getD [] = bytes
    rw [hencode]
    rfl
  rw [hencode, hbytes]

end Plain

/-- The bytes of plain records are those of their lines, one after the other. -/
theorem encode_lines {rs : List Record} (h : ∀ r ∈ rs, r.IsUsual) (hplain : ∀ r ∈ rs, r.IsPlain)
    (time : Moment) :
    Utf8.encode (rs.flatMap fun r => r.jsonLine time ++ "\n") =
      .ok (rs.flatMap (Files.recordBytes time)) := by
  induction rs with
  | nil => rfl
  | cons r rs ih =>
    have hline := (h r (by simp)).encode_line (hplain r (by simp)) time
    have hlines := ih (fun r hr => h r (by simp [hr])) fun r hr => hplain r (by simp [hr])
    exact Utf8.encode_append hline hlines

/-- **Plain records are told by their bytes.** -/
theorem areToldBy {rs : List Record} (h : ∀ r ∈ rs, r.IsUsual) (hplain : ∀ r ∈ rs, r.IsPlain)
    (time : Moment) : AreToldBy rs (rs.flatMap (Files.recordBytes time)) := by
  refine ⟨rs.map fun r => r.jsonLine time, ?_, ?_⟩
  · rw [List.flatMap_map]
    exact Utf8.decode_of_encode (encode_lines h hplain time)
  · rw [List.forall₂_map_right_iff, List.forall₂_same]
    exact fun r hr => (h r hr).parse_jsonLine (hplain r hr) time

/-- Bytes that tell records end with a line feed, if there are any. -/
theorem AreToldBy.getLast?_eq {rs : List Record} {bytes : Bytes} (h : AreToldBy rs bytes)
    {s : Symbol} (hs : (Utf8.decode bytes).toOption.bind List.getLast? = some s) :
    s = .char '\n' := by
  have hbreak : Text.ofString "\n" = [.char '\n'] := by decide
  obtain ⟨lines, hlines, -⟩ := h
  rw [hlines, hbreak] at hs
  obtain rfl | ⟨before, line, rfl⟩ := List.eq_nil_or_concat lines
  · cases hs
  · simpa [Except.toOption] using hs.symm

/-- A file that was empty and does not end with a line feed has not been filled with the lines of
records. -/
theorem not_told_of_getLast? {rs : List Record} {earlier bytes : Bytes} {s : Symbol}
    (hearlier : earlier = []) (hlast : (Utf8.decode bytes).toOption.bind List.getLast? = some s)
    (hs : s ≠ .char '\n') : ¬ ∃ told, bytes = earlier ++ told ∧ AreToldBy rs told := by
  rintro ⟨told, hbytes, htold⟩
  rw [hearlier, List.nil_append] at hbytes
  rw [hbytes] at hlast
  exact hs (htold.getLast?_eq hlast)

end Record

end PushButton
