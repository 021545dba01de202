import PushButton.Proofs.Bytes.Utf8
import PushButton.Proofs.Json.Symbols
import PushButton.Proofs.Json.Written
import PushButton.Proofs.Storage.Replacing
import PushButton.Storage.Workflow

/-!
# The items of a storage

Items whose keys and texts are plain have bytes, and the bytes hold the items again: their JSON
object is plain, it contains no carriage return that reading could turn into a line feed, and it is
read back. So after a text was put under a key, the storage holds the items with that text put
under that key, wherever it keeps them.
-/

namespace PushButton

namespace Storage

/-- No key and no text of the items has half of a surrogate pair in it. -/
def ArePlain (items : StoredItems) : Prop := ∀ item ∈ items, item.1.IsPlain ∧ item.2.IsPlain

/-- Plain items stay plain when a plain text is put under a plain key. -/
theorem ArePlain.put {items : StoredItems} (h : ArePlain items) {key value : Text}
    (hkey : key.IsPlain) (hvalue : value.IsPlain) : ArePlain (Json.put key value items) := by
  intro item hitem
  rcases Json.mem_put hitem with rfl | hitem
  · exact ⟨hkey, hvalue⟩
  · exact h item hitem

/-- The keys of the JSON object are the keys of the items. -/
theorem keys_toJson (items : StoredItems) :
    Json.keys (items.map fun (key, v) => (key, Json.text v)) = Json.keys items := by
  simp [Json.keys, Function.comp_def]

/-- The JSON object of items with distinct keys is exact. -/
theorem isExact_toJson {items : StoredItems} (h : (Json.keys items).Nodup) (room : Nat) :
    (toJson items).IsExact (room + 1) := by
  refine .object (by rwa [keys_toJson]) ?_
  intro f hf
  obtain ⟨item, -, rfl⟩ := List.mem_map.mp hf
  exact .text _

/-- The texts in the JSON object of items are their keys and their texts. -/
theorem allTexts_toJson {Q : Text → Prop} {items : StoredItems}
    (h : ∀ item ∈ items, Q item.1 ∧ Q item.2) : (toJson items).AllTexts Q := by
  refine .object ?_ ?_
  · intro f hf
    obtain ⟨item, hitem, rfl⟩ := List.mem_map.mp hf
    exact (h item hitem).1
  · intro f hf
    obtain ⟨item, hitem, rfl⟩ := List.mem_map.mp hf
    exact .text (h item hitem).2

/-- There is no carriage return in JSON: where one is in a text, it is escaped. -/
theorem notMem_block (v : Json) : Symbol.char '\r' ∉ v.block := by
  have hlayout : Json.HoldsOfLayout (· ≠ .char '\r') := by
    refine ⟨by decide, ?_⟩
    rintro c hlow - ⟨rfl⟩
    exact absurd hlow (by decide)
  have hquoted : Json.HoldsOfQuoted (fun _ => True) .full (· ≠ .char '\r') := by
    intro t _
    refine hlayout.2.quoted_full t ?_
    rintro s - hcode rfl
    exact absurd hcode (by decide)
  have hsymbols := Json.AllTexts.writeAt hlayout (l := { indent := some 2 }) hquoted
    (.of_forall (fun _ => trivial) v) 1
  exact fun h => hsymbols _ h rfl

/-- The JSON of a plain value has bytes, and they are read back as this text. -/
theorem exists_bytes_block {v : Json} (h : v.AllTexts Text.IsPlain) :
    ∃ bytes, Utf8.encode v.block = .ok bytes ∧ Files.textOf bytes = .ok v.block := by
  have hplain : v.block.IsPlain := h.isPlain_writeAt rfl 1
  obtain ⟨bytes, hencode, hdecode⟩ := Utf8.exists_encode_decode hplain
  refine ⟨bytes, hencode, ?_⟩
  rw [Files.textOf, hdecode, Except.map, Text.unifyLines_of_notMem (notMem_block v)]

/-- A plain text has bytes between its quotes. -/
theorem unencodable?_eq_none {t : Text} (h : t.IsPlain) : unencodable? t = none := by
  have hquoted : (Json.quoted .full t).IsPlain :=
    Json.holdsOfLayout_isChar.2.quoted fun s hs _ _ => h s hs
  obtain ⟨bytes, hbytes, -⟩ := Utf8.exists_encode_decode hquoted
  rw [unencodable?, hbytes]

/-- Plain items have bytes, and the bytes are those of their JSON object. -/
theorem exists_bytesOfItems {items : StoredItems} (hplain : ArePlain items) :
    ∃ bytes, bytesOfItems items = .ok bytes ∧ Files.textOf bytes = .ok (toJson items).block := by
  obtain ⟨bytes, hencode, htext⟩ := exists_bytes_block (allTexts_toJson hplain)
  have hnone : (items.flatMap fun (key, v) => [key, v]).findSome? unencodable? = none := by
    rw [List.findSome?_eq_none_iff]
    intro t ht
    obtain ⟨item, hitem, ht⟩ := List.mem_flatMap.mp ht
    simp only [List.mem_cons, List.not_mem_nil, or_false] at ht
    rcases ht with rfl | rfl
    · exact unencodable?_eq_none (hplain item hitem).1
    · exact unencodable?_eq_none (hplain item hitem).2
  refine ⟨bytes, ?_, htext⟩
  rw [bytesOfItems, hnone, hencode]
  rfl

/-- The text for a plain value is plain; what is no text is written in ASCII. -/
theorem isPlain_valueText {v : Json} (h : v.AllTexts Text.IsPlain) : (valueText v).IsPlain := by
  have hascii : v.asciiLine.IsPlain :=
    Json.AllTexts.writeAt Json.holdsOfLayout_isChar (l := { charset := .ascii })
      Json.holdsOfLayout_isChar.2.quoted_ascii (.of_forall (fun _ => trivial) v) 1
  cases h with
  | text ht => exact ht
  | _ => exact hascii

end Storage

namespace Shelf

variable {fs : Files} {path : Path} {items : StoredItems}

/-- What a storage in a file finds depends on the entry at the end of the path. -/
theorem items_file (path : Path) (fs : Files) : (⟨.file path, fs⟩ : Shelf).items =
    match fs.entry? path with
    | none => .ok []
    | some (.file bytes) => Storage.itemsOfBytes path bytes
    | some .directory => .error (.file (Files.fault path .isDirectory)) := by
  unfold items Files.has Files.read Files.entry?
  cases hlocate : fs.locate path with
  | error f => simp [hlocate]
  | ok l =>
    cases hentry : fs.at? l with
    | none => simp [hlocate, hentry]
    | some e => cases e <;> simp [hlocate, hentry]

/-- The items of a file have distinct keys. -/
theorem nodup_keys_of_items (h : (⟨.file path, fs⟩ : Shelf).items = .ok items) :
    (Json.keys items).Nodup := by
  rw [items_file] at h
  split at h
  · cases h
    exact List.nodup_nil
  · unfold Storage.itemsOfBytes Storage.itemsOfText at h
    split at h
    · cases h
    · split at h
      · cases h
        exact List.nodup_nil
      · split at h
        · cases h
        · next hparse =>
          cases h
          simpa [Json.keys, Function.comp_def] using Json.nodup_keys_of_parse hparse
        · cases h
  · cases h

end Shelf

namespace Storage

/-- There is nothing at the end of a path, or a file with a JSON object that has no half of a
surrogate pair in its keys and texts. -/
def HoldsPlainObject (fs : Files) (path : Path) : Prop :=
  fs.has path = false ∨
    ∃ bytes t fields, fs.read path = .ok bytes ∧ Files.textOf bytes = .ok t ∧
      Json.parse t = .ok (.object fields) ∧ (Json.object fields).AllTexts Text.IsPlain

/-- The items at the end of a path: none where nothing is there or white space alone, and otherwise
the fields of a JSON object, where the text for a value that is no text is its JSON. -/
inductive Holds (fs : Files) (path : Path) : StoredItems → Prop
  /-- Nothing is there. -/
  | absent : fs.has path = false → Holds fs path []
  /-- White space is there. -/
  | blank {bytes : Bytes} {t : Text} : fs.read path = .ok bytes → Files.textOf bytes = .ok t →
      t.isBlank = true → Holds fs path []
  /-- A JSON object is there that has no half of a surrogate pair in its keys and texts. -/
  | object {bytes : Bytes} {t : Text} {fields : List (Text × Json)} : fs.read path = .ok bytes →
      Files.textOf bytes = .ok t → Json.parse t = .ok (.object fields) →
      (Json.object fields).AllTexts Text.IsPlain →
      Holds fs path (fields.map fun (key, v) => (key, valueText v))

variable {fs : Files} {path : Path} {items : StoredItems}

/-- A file that holds a plain JSON object holds items. -/
theorem HoldsPlainObject.exists_holds (h : HoldsPlainObject fs path) :
    ∃ items, Holds fs path items := by
  rcases h with habsent | ⟨bytes, t, fields, hread, htext, hparse, hplain⟩
  · exact ⟨[], .absent habsent⟩
  · exact ⟨_, .object hread htext hparse hplain⟩

/-- Something is at the end of a path where a file can be read. -/
theorem has_of_read {bytes : Bytes} (h : fs.read path = .ok bytes) : fs.has path = true := by
  unfold Files.read at h
  unfold Files.has Files.entry?
  cases hlocate : fs.locate path with
  | error f => simp [hlocate] at h
  | ok l =>
    cases hentry : fs.at? l with
    | none => simp [hlocate, hentry] at h
    | some e => simp [hentry]

/-- A storage finds the items that its file holds. -/
theorem Holds.items_eq (h : Holds fs path items) :
    (⟨.file path, fs⟩ : Shelf).items = .ok items := by
  unfold Shelf.items
  cases h with
  | absent hhas => simp [hhas]
  | blank hread htext hblank =>
    simp [has_of_read hread, hread, itemsOfBytes, htext, itemsOfText, hblank]
  | object hread htext hparse _ =>
    simp [has_of_read hread, hread, itemsOfBytes, htext, itemsOfText,
      Json.isBlank_of_parse hparse, hparse]

/-- The items of a file are plain. -/
theorem Holds.arePlain (h : Holds fs path items) : ArePlain items := by
  cases h with
  | absent _ => exact fun _ h => absurd h List.not_mem_nil
  | blank _ _ _ => exact fun _ h => absurd h List.not_mem_nil
  | object _ _ _ hplain =>
    intro item hitem
    obtain ⟨f, hf, rfl⟩ := List.mem_map.mp hitem
    cases hplain with
    | object hkeys hvalues => exact ⟨hkeys f hf, isPlain_valueText (hvalues f hf)⟩

/-- The items that a file holds have distinct keys. -/
theorem Holds.nodup_keys (h : Holds fs path items) : (Json.keys items).Nodup :=
  Shelf.nodup_keys_of_items h.items_eq

/-- **Items are read back.** A file that can be written takes plain items with distinct keys, and
holds them afterwards. -/
theorem exists_write (hwritable : fs.IsWritable path) (hplain : ArePlain items)
    (hkeys : (Json.keys items).Nodup) :
    ∃ fs', (⟨.file path, fs⟩ : Shelf).write items = (.ok (), ⟨.file path, fs'⟩) ∧
      fs'.IsWritable path ∧ Holds fs' path items := by
  obtain ⟨bytes, hbytes, htext⟩ := exists_bytesOfItems hplain
  obtain ⟨fs', hreplace, hread, hwritable'⟩ := Shelf.replaceFile_of_isWritable hwritable bytes
  have hparse : Json.parse (toJson items).block = .ok (toJson items) :=
    Json.parse_write rfl (isExact_toJson hkeys 959)
  have hholds := Holds.object hread htext hparse (allTexts_toJson hplain)
  refine ⟨fs', ?_, hwritable', ?_⟩
  · simp only [Shelf.write, hbytes, hreplace]
  · simpa [valueText, Function.comp_def] using hholds

end Storage

namespace Shelf

/-- A text can be put under a key: where the storage keeps its items in a file, the file can be
written, it is absent or holds a plain JSON object, and the key is plain. -/
def Takes (s : Shelf) (key : Text) : Prop :=
  match s.storage with
  | .memory _ => True
  | .file path => s.files.IsWritable path ∧ Storage.HoldsPlainObject s.files path ∧ key.IsPlain

/-- **A text that is put.** A storage that takes a key keeps a plain text under it: afterwards it
holds the items that it held, with the text put under the key. -/
theorem Takes.set {s : Shelf} {key value : Text} (h : s.Takes key) (hvalue : value.IsPlain) :
    ∃ items s', s.items = .ok items ∧ s.set key value = (.ok (), s') ∧
      s'.items = .ok (Json.put key value items) := by
  obtain ⟨storage, fs⟩ := s
  cases storage with
  | memory items => exact ⟨items, _, rfl, rfl, rfl⟩
  | file path =>
    obtain ⟨hwritable, hobject, hkey⟩ := h
    obtain ⟨items, hholds⟩ := hobject.exists_holds
    obtain ⟨fs', hwrite, -, hholds'⟩ := Storage.exists_write hwritable
      (hholds.arePlain.put hkey hvalue) (Json.nodup_keys_put hholds.nodup_keys key value)
    refine ⟨items, ⟨.file path, fs'⟩, hholds.items_eq, ?_, hholds'.items_eq⟩
    rw [Shelf.set, hholds.items_eq]
    exact hwrite

end Shelf

end PushButton
