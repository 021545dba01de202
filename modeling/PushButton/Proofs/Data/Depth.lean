import PushButton.Data.Datum

/-!
# How deep data are

Lists and mappings are one level deeper than what stands in them.
-/

namespace PushButton

namespace Datum

/-- Items are no deeper than a number when each of them is no deeper. -/
theorem depthOfItems_le_iff {items : List Datum} {n : Nat} :
    depthOfItems items ≤ n ↔ ∀ d ∈ items, d.depth ≤ n := by
  induction items with
  | nil => simp [depthOfItems]
  | cons item rest ih => rw [depthOfItems, Nat.max_le, ih, List.forall_mem_cons]

/-- Entries are no deeper than a number when each key and each value is no deeper. -/
theorem depthOfEntries_le_iff {entries : List (Datum × Datum)} {n : Nat} :
    depthOfEntries entries ≤ n ↔ ∀ e ∈ entries, e.1.depth ≤ n ∧ e.2.depth ≤ n := by
  induction entries with
  | nil => simp [depthOfEntries]
  | cons e rest ih =>
    obtain ⟨key, value⟩ := e
    rw [depthOfEntries, Nat.max_le, Nat.max_le, ih, List.forall_mem_cons]

/-- A value is no deeper than the entries that it is in. -/
theorem depth_le_depthOfEntries {entries : List (Datum × Datum)} {key value : Datum}
    (h : (key, value) ∈ entries) : value.depth ≤ depthOfEntries entries :=
  (depthOfEntries_le_iff.mp (Nat.le_refl _) _ h).2

/-- A value is less deep than the mapping in which it stands under a text. -/
theorem depth_lt_of_entry? {name : Text} {entries : List (Datum × Datum)} {d : Datum}
    (h : entry? name entries = some d) : d.depth < (Datum.map entries).depth := by
  unfold entry? at h
  obtain ⟨e, he, rfl⟩ := Option.map_eq_some_iff.mp h
  rw [depth]
  exact Nat.lt_succ_of_le (depth_le_depthOfEntries (List.mem_of_find?_eq_some he))

/-- An item is less deep than its list. -/
theorem depth_lt_of_mem {items : List Datum} {d : Datum} (h : d ∈ items) :
    d.depth < (Datum.list items).depth := by
  rw [depth]
  exact Nat.lt_succ_of_le (depthOfItems_le_iff.mp (Nat.le_refl _) d h)

end Datum

end PushButton
