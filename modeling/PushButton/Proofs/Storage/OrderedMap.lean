import Mathlib.Logic.Function.Basic
import PushButton.Proofs.Storage.Calls
import PushButton.Proofs.Storage.Items

/-!
# A storage is an ordered map

A storage answers every call as an ordered map does that has the same items, wherever it keeps them.
In a file, a value that is no text counts as its JSON text. Any number of storages over one file
answer as one map, because each of them reads the file anew and leaves the items of the map in it.
-/

namespace PushButton

/-- Texts under keys, in the order in which the keys came, each key once. -/
structure OrderedMap where
  /-- The keys with their texts. -/
  items : StoredItems
  /-- No key occurs twice. -/
  nodup : (Json.keys items).Nodup

namespace OrderedMap

/-- Nothing under any key. -/
def empty : OrderedMap := ⟨[], List.nodup_nil⟩

/-- The keys in order. -/
def keys (m : OrderedMap) : List Text := m.items.map (·.1)

/-- The text under a key. -/
def get? (m : OrderedMap) (key : Text) : Option Text := (m.items.find? (·.1 = key)).map (·.2)

/-- The items with a text put under a key: a key that is there keeps its place, and a new one comes
last. -/
def setItems (items : StoredItems) (key value : Text) : StoredItems :=
  if key ∈ items.map (·.1) then items.map fun (k, v) => (k, if k = key then value else v)
  else items ++ [(key, value)]

/-- In items with distinct keys a text is put under a key as under a field of an object. -/
theorem put_eq_setItems {items : StoredItems} (h : (Json.keys items).Nodup) (key value : Text) :
    Json.put key value items = setItems items key value := by
  unfold setItems
  split
  · next hmem =>
    induction items with
    | nil => cases hmem
    | cons item rest ih =>
      obtain ⟨k, v⟩ := item
      obtain ⟨hk, hrest⟩ := List.nodup_cons.mp h
      rw [Json.put, List.map_cons]
      by_cases hkey : k = key
      · -- behind the key there is no second one
        have hsame : rest.map (fun (k, v) => (k, if k = key then value else v)) = rest := by
          refine (List.map_congr_left fun x hx => ?_).trans (List.map_id rest)
          have hne : x.1 ≠ key := fun hx' => hk (List.mem_map.mpr ⟨x, hx, hx'.trans hkey.symm⟩)
          simp [hne]
        simp [hkey, hsame]
      · have hmem' : key ∈ rest.map (·.1) := by simpa [Ne.symm hkey] using hmem
        simp [hkey, ih hrest hmem']
  · next hmem => exact Json.put_of_notMem hmem value

/-- The map with a text put under a key. -/
def set (m : OrderedMap) (key value : Text) : OrderedMap where
  items := setItems m.items key value
  nodup := put_eq_setItems m.nodup key value ▸ Json.nodup_keys_put m.nodup key value

/-- The map without a key. -/
def remove (m : OrderedMap) (key : Text) : OrderedMap where
  items := m.items.filter (·.1 ≠ key)
  nodup := (List.filter_sublist.map _).nodup m.nodup

/-- What a call of the map gives, and the map behind it. -/
def call (m : OrderedMap) : StorageCall → StorageReply × OrderedMap
  | .get key => (.text (m.get? key), m)
  | .set key value => (.done, m.set key value)
  | .remove key => (.done, m.remove key)
  | .clear => (.done, empty)
  | .keys => (.keys m.keys, m)
  | .size => (.size m.keys.length, m)
  | .contains key => (.contains (key ∈ m.keys), m)

/-- What calls give, one after the other. -/
def answers : OrderedMap → List StorageCall → List StorageReply
  | _, [] => []
  | m, c :: rest => (m.call c).1 :: (m.call c).2.answers rest

/-! ## Laws of ordered maps -/

/-- The items with a text put under a key. -/
theorem items_set (m : OrderedMap) (key value : Text) :
    (m.set key value).items = Json.put key value m.items := (put_eq_setItems m.nodup key value).symm

/-- Looking up a key is looking up a field. -/
theorem get?_eq_lookup (m : OrderedMap) (key : Text) : m.get? key = Json.lookup key m.items := by
  unfold get?
  induction m.items with
  | nil => rfl
  | cons item rest ih =>
    rw [List.find?_cons, Json.lookup]
    by_cases hkey : item.1 = key
    · simp [hkey]
    · simpa [hkey] using ih

/-- A key is there exactly when there is a text under it. -/
theorem isSome_get? (m : OrderedMap) (key : Text) :
    (m.get? key).isSome = decide (key ∈ m.keys) := by
  unfold get? keys
  rw [Option.isSome_map, Bool.eq_iff_iff, List.find?_isSome]
  simp

/-- The text under a key behind another change of the map. -/
theorem get?_set (m : OrderedMap) (key value k : Text) :
    (m.set key value).get? k = if k = key then some value else m.get? k := by
  rw [get?_eq_lookup, get?_eq_lookup, items_set, Json.lookup_put]
  simp only [eq_comm]

/-- The keys when a text was put under one: a key that was there keeps its place, and a new one
comes last. -/
theorem keys_set (m : OrderedMap) (key value : Text) :
    (m.set key value).keys = if key ∈ m.keys then m.keys else m.keys ++ [key] := by
  unfold keys
  rw [items_set]
  exact Json.keys_put key value m.items

/-- Under a key that was removed there is nothing, and under the others what was there. -/
theorem get?_remove (m : OrderedMap) (key k : Text) :
    (m.remove key).get? k = if k = key then none else m.get? k := by
  rw [get?_eq_lookup, get?_eq_lookup]
  exact Json.lookup_filter key k m.items

/-- The other keys stay in their order when one is removed. -/
theorem keys_remove (m : OrderedMap) (key : Text) :
    (m.remove key).keys = m.keys.filter (· ≠ key) := by
  unfold keys remove
  rw [List.filter_map]
  rfl

/-- What makes the map an ordered one. -/
structure Laws (m : OrderedMap) : Prop where
  /-- A key that is there keeps its place when a text is put under it, and a new one comes last. -/
  keys_set (key value : Text) :
    (m.set key value).keys = if key ∈ m.keys then m.keys else m.keys ++ [key]
  /-- Under the other keys the texts stay. -/
  get?_set (key value k : Text) :
    (m.set key value).get? k = if k = key then some value else m.get? k
  /-- The other keys keep their order when one is removed. -/
  keys_remove (key : Text) : (m.remove key).keys = m.keys.filter (· ≠ key)
  /-- Under the other keys the texts stay when one is removed. -/
  get?_remove (key k : Text) : (m.remove key).get? k = if k = key then none else m.get? k
  /-- A key has a text exactly when it is among the keys. -/
  isSome_get? (key : Text) : (m.get? key).isSome = decide (key ∈ m.keys)

/-- Every map is ordered. -/
theorem laws (m : OrderedMap) : m.Laws :=
  ⟨m.keys_set, m.get?_set, m.keys_remove, m.get?_remove, m.isSome_get?⟩

/-- Removing a key under which there is nothing changes nothing. -/
theorem remove_of_lookup_eq_none {m : OrderedMap} {key : Text}
    (h : Json.lookup key m.items = none) : m.remove key = m := by
  obtain ⟨items, hnodup⟩ := m
  have hfilter : items.filter (·.1 ≠ key) = items := Json.filter_of_lookup_eq_none h
  simp only [remove, hfilter]

end OrderedMap

/-- The text that a call puts, and its key, are such texts. -/
def StorageCall.PutsOnly (P : Text → Prop) : StorageCall → Prop
  | .set key value => P key ∧ P value
  | _ => True

namespace Shelf

/-! ## One storage -/

/-- What calls of a storage give, one after the other. -/
def answers : Shelf → List StorageCall → List (Except StorageError StorageReply)
  | _, [] => []
  | s, c :: rest => (s.call c).1 :: (s.call c).2.answers rest

/-- A storage that keeps maps of certain texts: it reads the items of the map that it keeps, and it
takes those of another in their place. -/
structure Keeps (R : Shelf → OrderedMap → Prop) (P : Text → Prop) : Prop where
  /-- The map has such texts. -/
  texts {s : Shelf} {m : OrderedMap} : R s m → ∀ item ∈ m.items, P item.1 ∧ P item.2
  /-- Its items are read. -/
  items {s : Shelf} {m : OrderedMap} : R s m → s.items = .ok m.items
  /-- The items of another map are written. -/
  write {s : Shelf} {m : OrderedMap} (m' : OrderedMap) : R s m →
    (∀ item ∈ m'.items, P item.1 ∧ P item.2) → ∃ s', s.write m'.items = (.ok (), s') ∧ R s' m'

variable {R : Shelf → OrderedMap → Prop} {P : Text → Prop}

/-- A storage answers one call as the map that it keeps, and then keeps the map behind the call. -/
theorem Keeps.call (h : Keeps R P) {s : Shelf} {m : OrderedMap} (hkept : R s m) {c : StorageCall}
    (hc : c.PutsOnly P) : ∃ s', s.call c = (.ok (m.call c).1, s') ∧ R s' (m.call c).2 := by
  have hitems := h.items hkept
  have hlookup (key : Text) : s.get? key = .ok (m.get? key) := by
    rw [Shelf.get?, hitems, Except.map, m.get?_eq_lookup]
  have hkeys : s.keys = .ok m.keys := by
    rw [Shelf.keys, hitems]
    rfl
  cases c with
  | get key => exact ⟨s, by rw [Shelf.call, hlookup]; rfl, hkept⟩
  | keys => exact ⟨s, by rw [Shelf.call, hkeys]; rfl, hkept⟩
  | size => exact ⟨s, by rw [Shelf.call, Shelf.size, hkeys]; rfl, hkept⟩
  | contains key =>
    refine ⟨s, ?_, hkept⟩
    rw [Shelf.call, Shelf.contains, hlookup, Except.map, Except.map, m.isSome_get?]
    rfl
  | clear =>
    obtain ⟨s', hwrite, hkept'⟩ := h.write .empty hkept fun _ h => absurd h List.not_mem_nil
    have hclear : s.clear = (.ok (), s') := hwrite
    exact ⟨s', by rw [Shelf.call, hclear]; rfl, hkept'⟩
  | set key value =>
    have htexts : ∀ item ∈ (m.set key value).items, P item.1 ∧ P item.2 := by
      intro item hitem
      rw [OrderedMap.items_set] at hitem
      rcases Json.mem_put hitem with rfl | hitem
      · exact hc
      · exact h.texts hkept item hitem
    obtain ⟨s', hwrite, hkept'⟩ := h.write (m.set key value) hkept htexts
    have hset : s.set key value = (.ok (), s') := by
      rw [Shelf.set, hitems, ← hwrite, OrderedMap.items_set]
    exact ⟨s', by rw [Shelf.call, hset]; rfl, hkept'⟩
  | remove key =>
    by_cases hthere : (Json.lookup key m.items).isSome = true
    · obtain ⟨s', hwrite, hkept'⟩ := h.write (m.remove key) hkept fun item hitem =>
        h.texts hkept item (List.mem_filter.mp hitem).1
      have hremove : s.remove key = (.ok (), s') := by
        rw [Shelf.remove, hitems, ← hwrite]
        dsimp only
        rw [if_pos hthere]
        rfl
      exact ⟨s', by rw [Shelf.call, hremove]; rfl, hkept'⟩
    · have hremove : s.remove key = (.ok (), s) := by
        rw [Shelf.remove, hitems]
        dsimp only
        rw [if_neg hthere]
      have hsame : m.remove key = m :=
        OrderedMap.remove_of_lookup_eq_none (by simpa using hthere)
      refine ⟨s, by rw [Shelf.call, hremove]; rfl, ?_⟩
      rw [OrderedMap.call, hsame]
      exact hkept

/-- **A storage answers as an ordered map**: call after call it answers as the map that it keeps. -/
theorem Keeps.answers (h : Keeps R P) {s : Shelf} {m : OrderedMap} (hkept : R s m)
    {calls : List StorageCall} (hcalls : ∀ c ∈ calls, c.PutsOnly P) :
    s.answers calls = (m.answers calls).map .ok := by
  induction calls generalizing s m with
  | nil => rfl
  | cons c rest ih =>
    obtain ⟨hc, hrest⟩ := List.forall_mem_cons.mp hcalls
    obtain ⟨s', hcall, hkept'⟩ := h.call hkept hc
    rw [Shelf.answers, hcall, OrderedMap.answers, List.map_cons, ih hkept' hrest]

/-- A storage in memory keeps maps of any texts. -/
theorem keeps_memory : Keeps (fun s m => s.storage = .memory m.items) fun _ => True where
  texts _ _ _ := ⟨trivial, trivial⟩
  items h := by rw [Shelf.items, h]
  write _ h _ := ⟨_, by rw [Shelf.write, h], rfl⟩

/-- A storage in a file that can be written keeps maps of plain texts. -/
theorem keeps_file (path : Path) :
    Keeps (fun s m => s.storage = .file path ∧ s.files.IsWritable path ∧
      Storage.Holds s.files path m.items) Text.IsPlain where
  texts h := h.2.2.arePlain
  items := by
    rintro ⟨storage, fs⟩ m ⟨rfl, -, hholds⟩
    exact hholds.items_eq
  write := by
    rintro ⟨storage, fs⟩ m m' ⟨rfl, hwritable, -⟩ hplain
    obtain ⟨fs', hwrite, hwritable', hholds⟩ := Storage.exists_write hwritable hplain m'.nodup
    exact ⟨_, hwrite, rfl, hwritable', hholds⟩

/-- A storage stays in its file. -/
theorem storage_call_file {path : Path} (fs : Files) (c : StorageCall) :
    ((⟨.file path, fs⟩ : Shelf).call c).2.storage = .file path := by
  have hwrite (items : StoredItems) :
      ((⟨.file path, fs⟩ : Shelf).write items).2.storage = .file path := rfl
  cases c with
  | get key => rfl
  | keys => rfl
  | size => rfl
  | contains key => rfl
  | clear => exact hwrite []
  | set key value =>
    rw [Shelf.call, Shelf.set]
    split
    · rfl
    · exact hwrite _
  | remove key =>
    rw [Shelf.call, Shelf.remove]
    split
    · rfl
    · split
      · exact hwrite _
      · rfl

end Shelf

/-! ## Several storages over one file -/

/-- Storages over one file system. -/
structure Shelves (ι : Type) where
  /-- The storages. -/
  storages : ι → Storage
  /-- The file system. -/
  files : Files

namespace Shelves

variable {ι : Type} [DecidableEq ι]

/-- One of the storages is called. -/
def call (ss : Shelves ι) (i : ι) (c : StorageCall) :
    Except StorageError StorageReply × Shelves ι :=
  let (reply, s) := (⟨ss.storages i, ss.files⟩ : Shelf).call c
  (reply, ⟨Function.update ss.storages i s.storage, s.files⟩)

/-- What calls of the storages give, one after the other. -/
def answers : Shelves ι → List (ι × StorageCall) → List (Except StorageError StorageReply)
  | _, [] => []
  | ss, (i, c) :: rest => (ss.call i c).1 :: (ss.call i c).2.answers rest

/-- Storages over one file answer as one storage over it, because each of them has nothing but the
file. -/
theorem answers_eq {ss : Shelves ι} {path : Path} (h : ∀ i, ss.storages i = .file path)
    (calls : List (ι × StorageCall)) :
    ss.answers calls = (⟨.file path, ss.files⟩ : Shelf).answers (calls.map (·.2)) := by
  induction calls generalizing ss with
  | nil => rfl
  | cons call rest ih =>
    obtain ⟨i, c⟩ := call
    have hstays : ((⟨.file path, ss.files⟩ : Shelf).call c).2.storage = .file path :=
      Shelf.storage_call_file ss.files c
    cases hout : (⟨.file path, ss.files⟩ : Shelf).call c with
    | mk reply s =>
      obtain ⟨storage, fs⟩ := s
      rw [hout] at hstays
      obtain rfl : storage = .file path := hstays
      have hcall : ss.call i c = (reply, ⟨ss.storages, fs⟩) := by
        rw [Shelves.call, h i, hout]
        dsimp only
        rw [← h i, Function.update_eq_self]
      have hrest : (⟨ss.storages, fs⟩ : Shelves ι).answers rest =
          (⟨.file path, fs⟩ : Shelf).answers (rest.map (·.2)) := ih h
      rw [List.map_cons, answers, Shelf.answers, hcall, hout, hrest]

/-- **Storages answer as an ordered map.** A storage in memory answers any calls as the ordered map
of its items. Any number of storages over one file that can be written, where nothing is there, or
white space, or a JSON object, answer as the ordered map of the items of the file, whatever plain
texts are put, and so they answer as a storage in memory that has the same items. -/
theorem answers_as_ordered_map (m : OrderedMap) :
    m.Laws ∧
      (∀ (fs : Files) (calls : List StorageCall),
        (⟨.memory m.items, fs⟩ : Shelf).answers calls = (m.answers calls).map .ok) ∧
      ∀ (ι : Type) [DecidableEq ι] (ss : Shelves ι) (path : Path) (calls : List (ι × StorageCall)),
        (∀ i, ss.storages i = .file path) → ss.files.IsWritable path →
          Storage.Holds ss.files path m.items → (∀ c ∈ calls, c.2.PutsOnly Text.IsPlain) →
            ss.answers calls = (m.answers (calls.map (·.2))).map .ok ∧
              ss.answers calls =
                (⟨.memory m.items, ss.files⟩ : Shelf).answers (calls.map (·.2)) := by
  have hmemory (fs : Files) (calls : List StorageCall) :
      (⟨.memory m.items, fs⟩ : Shelf).answers calls = (m.answers calls).map .ok := by
    have hputs (c : StorageCall) : c.PutsOnly fun _ => True := by
      cases c with
      | set key value => exact ⟨trivial, trivial⟩
      | _ => exact trivial
    exact Shelf.keeps_memory.answers rfl fun c _ => hputs c
  refine ⟨m.laws, hmemory, ?_⟩
  intro ι _ ss path calls hstorages hwritable hholds hcalls
  have hputs : ∀ c ∈ calls.map (·.2), c.PutsOnly Text.IsPlain := by
    intro c hc
    obtain ⟨call, hcall, rfl⟩ := List.mem_map.mp hc
    exact hcalls call hcall
  have hfile : ss.answers calls = (m.answers (calls.map (·.2))).map .ok := by
    rw [answers_eq hstorages]
    exact (Shelf.keeps_file path).answers ⟨rfl, hwritable, hholds⟩ hputs
  exact ⟨hfile, hfile.trans (hmemory ss.files _).symm⟩

/-- Two storages over a file in which a number stands. -/
theorem answers_as_ordered_map_over_number :
    let path : Path := ⟨false, ["store.json"]⟩
    let written := Json.object [("b", .int 2), ("a", .text "x")]
    let m : OrderedMap := ⟨[("b", "2"), ("a", "x")], by decide⟩
    ∃ bytes, Files.textOf bytes = .ok written.block ∧
      let ss : Shelves Bool := ⟨fun _ => .file path, ⟨[], [(["store.json"], .file bytes)], []⟩⟩
      (∀ i, ss.storages i = .file path) ∧ ss.files.IsWritable path ∧
        Storage.Holds ss.files path m.items ∧
        ss.answers [(true, .set "c" "y"), (false, .set "b" "3"), (true, .remove "a"),
            (false, .keys), (true, .get "b")] =
          [.ok .done, .ok .done, .ok .done, .ok (.keys ["b", "c"]), .ok (.text (some "3"))] := by
  intro path written m
  have hplain : written.AllTexts Text.IsPlain := by
    refine .object (by decide) ?_
    intro f hf
    simp only [List.mem_cons, List.not_mem_nil, or_false] at hf
    rcases hf with rfl | rfl
    · exact .int 2
    · exact .text (by decide)
  have hexact : written.IsExact Json.maxDepth := by
    refine .object (by decide) ?_
    intro f hf
    simp only [List.mem_cons, List.not_mem_nil, or_false] at hf
    rcases hf with rfl | rfl
    · exact .int (by decide)
    · exact .text "x"
  obtain ⟨bytes, -, htext⟩ := Storage.exists_bytes_block hplain
  refine ⟨bytes, htext, ?_⟩
  intro ss
  have hwritable : ss.files.IsWritable path := ⟨ss.files, rfl, rfl, rfl⟩
  have hholds : Storage.Holds ss.files path m.items :=
    .object rfl htext (Json.parse_write rfl hexact) hplain
  refine ⟨fun _ => rfl, hwritable, hholds, ?_⟩
  have hputs : ∀ c ∈ [(true, StorageCall.set "c" "y"), (false, .set "b" "3"), (true, .remove "a"),
      (false, .keys), (true, .get "b")], c.2.PutsOnly Text.IsPlain := by
    intro c hc
    simp only [List.mem_cons, List.not_mem_nil, or_false] at hc
    rcases hc with rfl | rfl | rfl | rfl | rfl
    · exact ⟨by decide, by decide⟩
    · exact ⟨by decide, by decide⟩
    · exact trivial
    · exact trivial
    · exact trivial
  exact ((answers_as_ordered_map m).2.2 Bool ss path _ (fun _ => rfl) hwritable hholds
    hputs).1

end Shelves

/-- The text of an object with an integer that has too many digits is refused. -/
theorem Json.exists_parse_eq_error {n : Int} (h : Text.maxDigits < (Text.ofNat n.natAbs).length) :
    ∃ e, parse (object [("n", .int n)]).block = .error e := by
  let rest : Text := Text.ofInt n ++ [.char '\n', .char '\x7d']
  have hends : EndsNumber [.char '\n', .char '\x7d'] := endsNumber_cons (.inl rfl) _
  have hnumber := readNumber_ofInt_eq n hends
  rw [if_pos h] at hnumber
  have hfirst : skipBlank (.char ' ' :: rest) = rest := by
    obtain ⟨s, t, hs, hblank, -⟩ := ofInt_first n
    simp only [rest, hs]
    exact skipBlank_cons hblank _
  have hblock : (object [("n", .int n)]).block = .char '\x7b' :: .char '\n' :: .char ' ' ::
      .char ' ' :: .char '"' :: .char 'n' :: .char '"' :: .char ':' :: .char ' ' :: rest := by
    simp [block, write, writeAt, writeFields, quoted, Layout.break, Text.ofString, rest]
    rfl
  have hfields (room fuel : Nat) : ∃ e, readFields room (fuel + 2)
      (.char '"' :: .char 'n' :: .char '"' :: .char ':' :: .char ' ' :: rest) = .error e := by
    have hquoted (k : Nat) (more : Text) :
        readQuoted k (.char 'n' :: .char '"' :: more) = .ok ("n", more) := rfl
    rw [readFields, hquoted]
    simp only [skipBlank_cons (s := .char ':') (by decide), hfirst, rest, readValue_ofInt, hnumber]
    exact ⟨_, rfl⟩
  have hread (fuel : Nat) :
      ∃ e, readValue maxDepth (fuel + 3) (object [("n", .int n)]).block = .error e := by
    obtain ⟨e, he⟩ := hfields (maxDepth - 1) fuel
    refine ⟨e, ?_⟩
    have hskip : skipBlank (.char '\n' :: .char ' ' :: .char ' ' :: .char '"' :: .char 'n' ::
        .char '"' :: .char ':' :: .char ' ' :: rest) =
        .char '"' :: .char 'n' :: .char '"' :: .char ':' :: .char ' ' :: rest := rfl
    rw [hblock, readValue, if_neg (by decide), hskip]
    simp [he, Except.map]
  obtain ⟨fuel, hfuel⟩ : ∃ fuel, 2 * (object [("n", .int n)]).block.length + 2 = fuel + 3 :=
    ⟨2 * (object [("n", .int n)]).block.length - 1, by rw [hblock, List.length_cons]; omega⟩
  obtain ⟨e, he⟩ := hread fuel
  have htext : readText (object [("n", .int n)]).block = .error e := by
    rw [← hfuel] at he
    rw [hblock] at he ⊢
    rw [readText.eq_2 _ (by simp), skipBlank_cons (by decide), he]
  exact ⟨_, by rw [parse, htext]; rfl⟩

/-- Not every file with a JSON object answers as an ordered map: an integer in it may have more
digits than are read. -/
theorem Shelves.not_every_object_answers :
    ¬ ∀ (fs : Files) (path : Path) (bytes : Bytes) (fields : List (Text × Json)),
      fs.IsWritable path → fs.read path = .ok bytes →
        Files.textOf bytes = .ok (Json.object fields).block →
          (Json.object fields).AllTexts Text.IsPlain → (Json.keys fields).Nodup →
            ((⟨.file path, fs⟩ : Shelf).call .size).1 = .ok (.size fields.length) := by
  intro h
  let n : Int := 10 ^ Text.maxDigits
  have hdigits : Text.maxDigits < (Text.ofNat n.natAbs).length := by
    have hlarge : n.natAbs = 10 ^ Text.maxDigits := by simp [n, Int.natAbs_pow]
    rw [hlarge, Text.ofNat, List.length_map]
    refine Nat.lt_of_not_le fun hle => ?_
    rw [Nat.length_toDigits_le_iff (by decide) (by decide)] at hle
    exact Nat.lt_irrefl _ hle
  obtain ⟨e, herror⟩ := Json.exists_parse_eq_error hdigits
  have hplain : (Json.object [("n", .int n)]).AllTexts Text.IsPlain := by
    refine .object (by decide) ?_
    intro f hf
    obtain rfl := List.mem_singleton.mp hf
    exact .int n
  obtain ⟨bytes, -, htext⟩ := Storage.exists_bytes_block hplain
  let path : Path := ⟨false, ["store.json"]⟩
  let fs : Files := ⟨[], [(["store.json"], .file bytes)], []⟩
  have hsize := h fs path bytes [("n", .int n)] ⟨fs, rfl, rfl, rfl⟩ rfl htext hplain (by decide)
  have hitems : (⟨.file path, fs⟩ : Shelf).items = .error (.notJson path e) := by
    have hblank : (Json.object [("n", .int n)]).block.isBlank = false := rfl
    have hbytes : Storage.itemsOfBytes path bytes = .error (.notJson path e) := by
      rw [Storage.itemsOfBytes, htext]
      dsimp only
      rw [Storage.itemsOfText, hblank, herror]
      rfl
    exact hbytes
  rw [Shelf.call, Shelf.size, Shelf.keys, hitems] at hsize
  cases hsize

end PushButton
