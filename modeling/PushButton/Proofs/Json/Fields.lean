import Mathlib.Data.List.Nodup
import PushButton.Json.Reader
import PushButton.Proofs.Results

/-!
# Keys that occur once

Putting a value under a key that is not there appends it, so rows of fields whose keys are distinct
are collected without a change. Putting keeps keys distinct, and what is collected has distinct
keys whatever was written. So an object that is read has distinct keys; it begins with a brace.
-/

namespace PushButton

namespace Json

variable {α : Type}

/-- The keys of fields. -/
def keys (fields : List (Text × α)) : List Text := fields.map (·.1)

/-- A value under a new key comes last. -/
theorem put_of_notMem {key : Text} {fields : List (Text × α)} (h : key ∉ keys fields) (value : α) :
    put key value fields = fields ++ [(key, value)] := by
  induction fields with
  | nil => rfl
  | cons f rest ih =>
    obtain ⟨k, v⟩ := f
    have hk : k ≠ key := fun hk => h (by simp [keys, hk])
    have hrest : key ∉ keys rest := fun hm => h (List.mem_cons_of_mem _ hm)
    rw [put, if_neg hk, ih hrest, List.cons_append]

/-- The keys after a value was put: the key is new, or the keys stay as they are. -/
theorem keys_put (key : Text) (value : α) (fields : List (Text × α)) :
    keys (put key value fields) =
      if key ∈ keys fields then keys fields else keys fields ++ [key] := by
  by_cases h : key ∈ keys fields
  · rw [if_pos h]
    induction fields with
    | nil => simp [keys] at h
    | cons f rest ih =>
      obtain ⟨k, v⟩ := f
      by_cases hk : k = key
      · simp [put, hk, keys]
      · have hrest : key ∈ keys rest := by simpa [keys, Ne.symm hk] using h
        rw [put, if_neg hk]
        simpa [keys] using ih hrest
  · rw [if_neg h, put_of_notMem h]
    simp [keys]

/-- Putting keeps keys distinct. -/
theorem nodup_keys_put {fields : List (Text × α)} (h : (keys fields).Nodup) (key : Text)
    (value : α) : (keys (put key value fields)).Nodup := by
  rw [keys_put]
  split
  · exact h
  · next hk =>
    rw [List.nodup_append]
    refine ⟨h, List.nodup_singleton _, ?_⟩
    intro a ha b hb hab
    rw [List.mem_singleton] at hb
    exact hk (by rwa [← hb, ← hab])

/-- What stands in fields after a value was put: the value, or what stood there before. -/
theorem mem_put {key : Text} {value : α} {fields : List (Text × α)} {f : Text × α}
    (h : f ∈ put key value fields) : f = (key, value) ∨ f ∈ fields := by
  induction fields with
  | nil => simpa [put] using h
  | cons g rest ih =>
    obtain ⟨k, v⟩ := g
    rw [put] at h
    split at h
    · next hk =>
      rcases List.mem_cons.mp h with rfl | h
      · exact Or.inl (by rw [hk])
      · exact Or.inr (List.mem_cons_of_mem _ h)
    · rcases List.mem_cons.mp h with rfl | h
      · exact Or.inr List.mem_cons_self
      · rcases ih h with h | h
        · exact Or.inl h
        · exact Or.inr (List.mem_cons_of_mem _ h)

/-- A value that was put is among the fields. -/
theorem mem_put_self (key : Text) (value : α) (fields : List (Text × α)) :
    (key, value) ∈ put key value fields := by
  induction fields with
  | nil => exact List.mem_singleton_self _
  | cons g rest ih =>
    rw [put]
    split
    · next hk => simp [hk]
    · exact List.mem_cons_of_mem _ ih

/-- The fields under other keys stay when a value is put. -/
theorem filter_put (key : Text) (value : α) (fields : List (Text × α)) :
    (put key value fields).filter (·.1 ≠ key) = fields.filter (·.1 ≠ key) := by
  induction fields with
  | nil => simp [put]
  | cons g rest ih =>
    obtain ⟨k, v⟩ := g
    rw [put]
    split
    · next hk => simp [hk]
    · next hk =>
      rw [List.filter_cons_of_pos (by simpa using hk), List.filter_cons_of_pos (by simpa using hk),
        ih]

/-- Where keys are distinct, a field is found under its key. -/
theorem lookup_of_mem {fields : List (Text × α)} (h : (keys fields).Nodup) {f : Text × α}
    (hf : f ∈ fields) : lookup f.1 fields = some f.2 := by
  induction fields with
  | nil => cases hf
  | cons g rest ih =>
    obtain ⟨hfirst, hrest⟩ := List.nodup_cons.mp h
    obtain rfl | hf := List.mem_cons.mp hf
    · simp [lookup]
    · have hne : g.1 ≠ f.1 := fun hsame =>
        hfirst (List.mem_map.mpr ⟨f, hf, hsame.symm⟩)
      rw [lookup, if_neg hne]
      exact ih hrest hf

/-- What is found under a key has the key among the keys. -/
theorem mem_keys_of_lookup {key : Text} {fields : List (Text × α)} {value : α}
    (h : lookup key fields = some value) : key ∈ keys fields := by
  induction fields with
  | nil => cases h
  | cons f rest ih =>
    obtain ⟨k, v⟩ := f
    rw [lookup] at h
    split at h
    · next hk => exact List.mem_cons.mpr (.inl hk.symm)
    · exact List.mem_cons_of_mem _ (ih h)

/-- When values are changed and some are left out, the keys are some of the keys, in their order. -/
theorem keys_filterMap_sublist {β : Type} (f : Text → α → Option β) (fields : List (Text × α)) :
    (keys (fields.filterMap fun (k, v) => (f k v).map fun x => (k, x))).Sublist (keys fields) := by
  induction fields with
  | nil => exact .slnil
  | cons g rest ih =>
    obtain ⟨k, v⟩ := g
    cases hf : f k v with
    | none =>
      simp only [List.filterMap_cons, hf, Option.map_none]
      exact .cons _ ih
    | some x =>
      simp only [List.filterMap_cons, hf, Option.map_some]
      exact ih.cons_cons k

/-- When values are changed and some are left out, what is found under a key is the changed value,
if keys are distinct. -/
theorem lookup_filterMap {β : Type} (f : Text → α → Option β) {fields : List (Text × α)}
    (h : (keys fields).Nodup) (key : Text) :
    lookup key (fields.filterMap fun (k, v) => (f k v).map fun x => (k, x)) =
      (lookup key fields).bind (f key) := by
  induction fields with
  | nil => rfl
  | cons g rest ih =>
    obtain ⟨k, v⟩ := g
    obtain ⟨hfirst, hrest⟩ := List.nodup_cons.mp h
    have ih := ih hrest
    cases hf : f k v with
    | none =>
      simp only [List.filterMap_cons, hf, Option.map_none, ih, lookup]
      by_cases hk : k = key
      · subst hk
        -- The key occurs once, so nothing is found behind the value that is left out.
        have hnone : lookup k rest = none :=
          Option.eq_none_iff_forall_ne_some.mpr fun x hx => hfirst (mem_keys_of_lookup hx)
        rw [if_pos rfl, hnone]
        exact hf.symm
      · rw [if_neg hk]
    | some x =>
      simp only [List.filterMap_cons, hf, Option.map_some, lookup, ih]
      by_cases hk : k = key
      · subst hk
        rw [if_pos rfl, if_pos rfl]
        exact hf.symm
      · rw [if_neg hk, if_neg hk]

/-- Among the fields under other keys than one there is nothing under that one, and the same under
the others. -/
theorem lookup_filter (key k : Text) (fields : List (Text × α)) :
    lookup k (fields.filter (·.1 ≠ key)) = if k = key then none else lookup k fields := by
  induction fields with
  | nil => simp [lookup]
  | cons g rest ih =>
    obtain ⟨name, v⟩ := g
    by_cases hname : name = key
    · rw [List.filter_cons_of_neg (by simpa using hname), ih, lookup]
      by_cases hk : k = key
      · simp [hk]
      · have hne : name ≠ k := fun h => hk (h.symm.trans hname)
        rw [if_neg hk, if_neg hk, if_neg hne]
    · rw [List.filter_cons_of_pos (by simpa using hname), lookup, lookup, ih]
      by_cases hk : name = k
      · have hne : k ≠ key := fun h => hname (hk.trans h)
        simp [hk, hne]
      · simp [hk]

/-- Where nothing is under a key, all fields are under other keys. -/
theorem filter_of_lookup_eq_none {key : Text} {fields : List (Text × α)}
    (h : lookup key fields = none) : fields.filter (·.1 ≠ key) = fields := by
  induction fields with
  | nil => rfl
  | cons g rest ih =>
    obtain ⟨k, v⟩ := g
    rw [lookup] at h
    split at h
    · cases h
    · next hk => rw [List.filter_cons_of_pos (by simpa using hk), ih h]

/-- Fields that are put one after the other behind others. The keys of both rows together are
distinct, which every step keeps. -/
theorem foldl_put_of_nodup {acc fields : List (Text × α)} (h : (keys (acc ++ fields)).Nodup) :
    fields.foldl (fun acc (k, v) => put k v acc) acc = acc ++ fields := by
  induction fields generalizing acc with
  | nil => simp
  | cons f rest ih =>
    obtain ⟨k, v⟩ := f
    have hk : k ∉ keys acc := by
      intro hm
      rw [keys, List.map_append, List.nodup_append] at h
      exact h.2.2 k hm k (by simp) rfl
    rw [List.foldl_cons]
    dsimp only
    rw [put_of_notMem hk, ih (by simpa [keys] using h)]
    simp

/-- Fields with distinct keys are collected without a change. -/
theorem collect_of_nodup {fields : List (Text × α)} (h : (keys fields).Nodup) :
    collect fields = fields := by
  have h' : (keys ([] ++ fields)).Nodup := h
  exact foldl_put_of_nodup h'

/-- What is collected has distinct keys. -/
theorem nodup_keys_collect (fields : List (Text × α)) : (keys (collect fields)).Nodup := by
  have hfold : ∀ acc : List (Text × α), (keys acc).Nodup →
      (keys (fields.foldl (fun acc (k, v) => put k v acc) acc)).Nodup := by
    induction fields with
    | nil => exact fun _ h => h
    | cons f rest ih => exact fun acc h => ih _ (nodup_keys_put h f.1 f.2)
  exact hfold [] List.nodup_nil

/-- No word stands for an object. -/
theorem readWord_ne_object {t rest : Text} {fields : List (Text × Json)} :
    readWord t ≠ some (.object fields, rest) := by
  intro h
  obtain ⟨⟨word, v⟩, hmem, hfound⟩ := List.exists_of_findSome?_eq_some h
  obtain ⟨more, -, hmore⟩ := Option.map_eq_some_iff.mp hfound
  cases hmore
  simp at hmem

/-- No number is an object. -/
theorem readNumber_ne_object {t rest : Text} {fields : List (Text × Json)} :
    readNumber t ≠ .ok (.object fields, rest) := by
  intro h
  unfold readNumber at h
  dsimp only at h
  split at h
  · cases h
  · split at h
    · split at h
      · cases h
      · cases h
    · cases h

/-- An object at the beginning of a text begins with a brace, and its fields are collected. -/
theorem exists_of_readValue_eq_object {room fuel : Nat} {t rest : Text}
    {fields : List (Text × Json)} (h : readValue room fuel t = .ok (.object fields, rest)) :
    ∃ more written, t = .char '\x7b' :: more ∧ fields = collect written := by
  cases fuel with
  | zero => cases h
  | succ fuel =>
    rw [readValue.eq_def] at h
    dsimp only at h
    split at h
    · obtain ⟨found, -, hfound⟩ := exists_of_map_eq_ok h
      cases hfound
    · split at h
      · cases h
      · split at h
        · cases h
        · obtain ⟨found, -, hfound⟩ := exists_of_map_eq_ok h
          cases hfound
    · split at h
      · cases h
      · split at h
        · cases h
          exact ⟨_, [], rfl, rfl⟩
        · obtain ⟨found, -, hfound⟩ := exists_of_map_eq_ok h
          cases hfound
          exact ⟨_, _, rfl, rfl⟩
    · split at h
      · next found hword =>
        cases h
        exact absurd hword readWord_ne_object
      · exact absurd h readNumber_ne_object

/-- An object that a text holds begins with a brace behind white space, and its fields are
collected. -/
theorem exists_of_parse_eq_object {t : Text} {fields : List (Text × Json)}
    (h : parse t = .ok (.object fields)) :
    ∃ more written, skipBlank t = .char '\x7b' :: more ∧ fields = collect written := by
  have htext := of_mapError_eq_ok h
  unfold readText at htext
  split at htext
  · cases htext
  · split at htext
    · cases htext
    · next hread =>
      dsimp only at htext
      split at htext
      · cases htext
        exact exists_of_readValue_eq_object hread
      · cases htext

/-- An object that a text holds has distinct keys. -/
theorem nodup_keys_of_parse {t : Text} {fields : List (Text × Json)}
    (h : parse t = .ok (.object fields)) : (keys fields).Nodup := by
  obtain ⟨more, written, -, rfl⟩ := exists_of_parse_eq_object h
  exact nodup_keys_collect written

/-- A text that holds an object is not white space alone. -/
theorem isBlank_of_parse {t : Text} {fields : List (Text × Json)}
    (h : parse t = .ok (.object fields)) : t.isBlank = false := by
  obtain ⟨more, written, hskip, -⟩ := exists_of_parse_eq_object h
  have hbrace : Symbol.char '\x7b' ∈ t := by
    have hmem : Symbol.char '\x7b' ∈ skipBlank t := by rw [hskip]; exact List.mem_cons_self
    exact (List.dropWhile_sublist _).mem hmem
  rw [Text.isBlank, List.all_eq_false]
  exact ⟨_, hbrace, by decide⟩

end Json

end PushButton
