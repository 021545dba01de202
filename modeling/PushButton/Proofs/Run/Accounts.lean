import PushButton.Proofs.Run.History

/-!
# Keeping account of the runs

In an orderly list of deeds a run begins at most once, it takes up actions only after it has begun,
and it ends at most once. For such a list the numbers that are kept about the runs are right: how
many have begun, how many are under way, and which position was taken up last since no run was.
-/

namespace PushButton

namespace Deed

/-- The deed begins a run. -/
def isBegan : Deed → Bool
  | .began => true
  | _ => false

/-- The deed ends a run. -/
def isLeft : Deed → Bool
  | .left _ => true
  | _ => false

end Deed

/-! ## Runs that have begun and ended -/

/-- The runs that have begun, in this order. -/
def begun (ds : List (Nat × Deed)) : List Nat := (ds.filter (·.2.isBegan)).map (·.1)

/-- The runs that have ended, in this order. -/
def ended (ds : List (Nat × Deed)) : List Nat := (ds.filter (·.2.isLeft)).map (·.1)

/-- The runs that have begun and not ended. -/
def underWay (ds : List (Nat × Deed)) : List Nat := (begun ds).filter fun k => k ∉ ended ds

section Lists

variable {ds : List (Nat × Deed)} {k : Nat} {d : Deed}

/-- Runs begin one after the other. -/
theorem begun_append {ds' : List (Nat × Deed)} : begun (ds ++ ds') = begun ds ++ begun ds' := by
  unfold begun
  rw [List.filter_append, List.map_append]

/-- Runs end one after the other. -/
theorem ended_append {ds' : List (Nat × Deed)} : ended (ds ++ ds') = ended ds ++ ended ds' := by
  unfold ended
  rw [List.filter_append, List.map_append]

/-- A run begins as often as that is one of its deeds. -/
theorem begun_map (k : Nat) (ds : List Deed) :
    begun (ds.map (k, ·)) = List.replicate (ds.countP Deed.isBegan) k := by
  unfold begun
  rw [List.filter_map, List.map_map, List.countP_eq_length_filter]
  exact List.map_const' ..

/-- A run that begins has begun last. -/
theorem begun_append_began : begun (ds ++ [(k, .began)]) = begun ds ++ [k] := by
  simp [begun, Deed.isBegan]

/-- Where no run begins, the same runs have begun. -/
theorem begun_append_of_ne (hd : d.isBegan = false) : begun (ds ++ [(k, d)]) = begun ds := by
  simp [begun, hd]

/-- A run that ends has ended last. -/
theorem ended_append_left (e : Ending) : ended (ds ++ [(k, .left e)]) = ended ds ++ [k] := by
  simp [ended, Deed.isLeft]

/-- Where no run ends, the same runs have ended. -/
theorem ended_append_of_ne (hd : d.isLeft = false) : ended (ds ++ [(k, d)]) = ended ds := by
  simp [ended, hd]

/-- A run is under way when it has begun and not ended. -/
theorem mem_underWay : k ∈ underWay ds ↔ k ∈ begun ds ∧ k ∉ ended ds := by
  simp [underWay]

/-- A run that begins is under way. -/
theorem underWay_append_began (hended : k ∉ ended ds) :
    underWay (ds ++ [(k, .began)]) = underWay ds ++ [k] := by
  unfold underWay
  rw [begun_append_began, ended_append_of_ne rfl, List.filter_append]
  simp [hended]

/-- Where no run begins or ends, the same runs are under way. -/
theorem underWay_append_of_ne (hbegan : d.isBegan = false) (hleft : d.isLeft = false) :
    underWay (ds ++ [(k, d)]) = underWay ds := by
  unfold underWay
  rw [begun_append_of_ne hbegan, ended_append_of_ne hleft]

/-- When a run ends, the others are under way. -/
theorem underWay_append_left (e : Ending) :
    underWay (ds ++ [(k, .left e)]) = (underWay ds).filter (· != k) := by
  unfold underWay
  rw [begun_append_of_ne rfl, ended_append_left, List.filter_filter]
  refine List.filter_congr fun j _ => ?_
  by_cases hjk : j = k
  · simp [hjk]
  · simp [hjk]

end Lists

/-! ## Orderly lists of deeds -/

/-- Runs begin at most once, and they take up actions and end only when they are under way. -/
inductive Orderly : List (Nat × Deed) → Prop
  /-- Nothing was done. -/
  | nil : Orderly []
  /-- A run begins. -/
  | began {ds : List (Nat × Deed)} {k : Nat} :
      Orderly ds → k ∉ begun ds → Orderly (ds ++ [(k, .began)])
  /-- A run ends. -/
  | left {ds : List (Nat × Deed)} {k : Nat} (e : Ending) :
      Orderly ds → k ∈ underWay ds → Orderly (ds ++ [(k, .left e)])
  /-- A run does something else. -/
  | within {ds : List (Nat × Deed)} {k : Nat} {d : Deed} : Orderly ds → k ∈ underWay ds →
      d.isBegan = false → d.isLeft = false → Orderly (ds ++ [(k, d)])

namespace Orderly

variable {ds : List (Nat × Deed)}

/-- A run that has ended had begun. -/
theorem begun_of_ended (h : Orderly ds) {k : Nat} (hk : k ∈ ended ds) : k ∈ begun ds := by
  induction h with
  | nil => cases hk
  | began _ _ ih =>
    rw [ended_append_of_ne rfl] at hk
    rw [begun_append_began]
    exact List.mem_append_left _ (ih hk)
  | left e _ hj ih =>
    rw [ended_append_left] at hk
    rw [begun_append_of_ne rfl]
    obtain hk | hk := List.mem_append.mp hk
    · exact ih hk
    · rw [List.mem_singleton.mp hk]
      exact (mem_underWay.mp hj).1
  | within _ _ hbegan hleft ih =>
    rw [ended_append_of_ne hleft] at hk
    rw [begun_append_of_ne hbegan]
    exact ih hk

/-- No run begins twice. -/
theorem nodup_begun (h : Orderly ds) : (begun ds).Nodup := by
  induction h with
  | nil => exact List.nodup_nil
  | began _ hk ih =>
    rw [begun_append_began]
    refine List.nodup_append.mpr ⟨ih, by simp, fun j hj i hi => ?_⟩
    rw [List.mem_singleton.mp hi]
    exact fun hjk => hk (hjk ▸ hj)
  | left _ _ _ ih =>
    rw [begun_append_of_ne rfl]
    exact ih
  | within _ _ hbegan _ ih =>
    rw [begun_append_of_ne hbegan]
    exact ih

/-- No run is under way twice. -/
theorem nodup_underWay (h : Orderly ds) : (underWay ds).Nodup := h.nodup_begun.filter _

/-- When a run ends, one run less is under way. -/
theorem length_underWay_left (h : Orderly ds) {k : Nat} (hk : k ∈ underWay ds) (e : Ending) :
    (underWay (ds ++ [(k, .left e)])).length + 1 = (underWay ds).length := by
  rw [underWay_append_left, ← List.Nodup.erase_eq_filter h.nodup_underWay]
  have hlength := List.length_erase_of_mem hk
  have hpos := List.length_pos_of_mem hk
  omega

end Orderly

/-! ## The numbers about the runs -/

/-- What is known about the runs after the deeds, if none had begun before. -/
def kept (ms : Int) (ds : List (Nat × Deed)) : Sequencer :=
  (ds.map (·.2)).foldl Deed.track (.paced ms)

/-- What is known about the runs after one deed more. -/
theorem kept_append (ms : Int) (ds : List (Nat × Deed)) (k : Nat) (d : Deed) :
    kept ms (ds ++ [(k, d)]) = Deed.track (kept ms ds) d := by
  unfold kept
  rw [List.map_append, List.foldl_append]
  rfl

/-- A position is the one that was taken up last since no run was under way, and there is none if no
action was taken up since then. -/
def IsCurrent (ds : List (Nat × Deed)) (current : Option Nat) : Prop :=
  ∃ before after, ds = before ++ after ∧ underWay before = [] ∧
    (∀ part, part <+: after → part ≠ [] → underWay (before ++ part) ≠ []) ∧
    current = (after.filterMap (·.2.reached?)).getLast?

namespace IsCurrent

variable {ds : List (Nat × Deed)} {current : Option Nat} {x : Nat × Deed}

/-- While no run is under way there is no current position. -/
theorem none_of_idle (hidle : underWay ds = []) : IsCurrent ds none :=
  ⟨ds, [], (List.append_nil ds).symm, hidle,
    fun _ hpart hne => (hne (List.prefix_nil.mp hpart)).elim,
    rfl⟩

/-- While a run is under way, the current position is the one that is taken up, or else the one
before. -/
theorem append (h : IsCurrent ds current) (hbusy : underWay (ds ++ [x]) ≠ []) :
    IsCurrent (ds ++ [x]) (x.2.reached?.or current) := by
  obtain ⟨before, after, rfl, hidle, hparts, rfl⟩ := h
  refine ⟨before, after ++ [x], List.append_assoc _ _ _, hidle, fun part hpart hne => ?_, ?_⟩
  · obtain rfl | hpart := List.prefix_concat_iff.mp hpart
    · rw [← List.append_assoc]
      exact hbusy
    · exact hparts part hpart hne
  · rw [List.filterMap_append, List.getLast?_append]
    cases hreached : x.2.reached? with
    | none => simp [hreached]
    | some i => simp [hreached]

/-- There is no current position when no run is under way. -/
theorem eq_none (h : IsCurrent ds current) (hidle : underWay ds = []) : current = none := by
  obtain ⟨before, after, rfl, -, hparts, rfl⟩ := h
  cases after with
  | nil => rfl
  | cons x rest => exact (hparts _ (List.prefix_refl _) (by simp) hidle).elim

end IsCurrent

/-- What is known about the runs is right. -/
structure IsRight (ds : List (Nat × Deed)) (s : Sequencer) : Prop where
  /-- As many runs were counted as have begun. -/
  started : s.started = (begun ds).length
  /-- As many runs are counted as active as are under way. -/
  active : s.active = (underWay ds).length
  /-- The current position is the one that was taken up last since no run was under way. -/
  current : IsCurrent ds s.current

/-- **Keeping account.** For an orderly list of deeds, what is known about the runs is right. The
induction is on the list. -/
theorem Orderly.isRight {ds : List (Nat × Deed)} (h : Orderly ds) (ms : Int) :
    IsRight ds (kept ms ds) := by
  induction h with
  | nil => exact ⟨rfl, rfl, .none_of_idle rfl⟩
  | @began ds k h hk ih =>
    have hunderWay : underWay (ds ++ [(k, .began)]) = underWay ds ++ [k] :=
      underWay_append_began fun hended => hk (h.begun_of_ended hended)
    have hbusy : underWay (ds ++ [(k, .began)]) ≠ [] := by simp [hunderWay]
    rw [kept_append]
    refine ⟨?_, ?_, ih.current.append hbusy⟩
    · rw [begun_append_began, List.length_append]
      exact congrArg (· + 1) ih.started
    · rw [hunderWay, List.length_append, Int.natCast_add]
      exact congrArg (· + 1) ih.active
  | @left ds k e h hk ih =>
    have hlength := h.length_underWay_left hk e
    have hactive : (kept ms ds).active - 1 = (underWay (ds ++ [(k, .left e)])).length := by
      rw [ih.active, ← hlength]
      omega
    rw [kept_append]
    refine ⟨?_, hactive, ?_⟩
    · rw [begun_append_of_ne rfl]
      exact ih.started
    · change IsCurrent _ (if (kept ms ds).active - 1 = 0 then none else (kept ms ds).current)
      rw [hactive]
      by_cases hidle : underWay (ds ++ [(k, .left e)]) = []
      · rw [if_pos (by simp [hidle])]
        exact .none_of_idle hidle
      · rw [if_neg (by simpa using hidle)]
        exact ih.current.append hidle
  | @within ds k d h hk hbegan hleft ih =>
    have hunderWay : underWay (ds ++ [(k, d)]) = underWay ds := underWay_append_of_ne hbegan hleft
    have hbusy : underWay (ds ++ [(k, d)]) ≠ [] := by
      rw [hunderWay]
      exact List.ne_nil_of_mem hk
    have hcurrent := ih.current.append hbusy
    rw [kept_append]
    have hstarted : (kept ms ds).started = (begun (ds ++ [(k, d)])).length := by
      rw [begun_append_of_ne hbegan]
      exact ih.started
    have hactive : (kept ms ds).active = (underWay (ds ++ [(k, d)])).length := by
      rw [hunderWay]
      exact ih.active
    cases d with
    | began => cases hbegan
    | left e => cases hleft
    | reached i | put lines images | applied i a | remade => exact ⟨hstarted, hactive, hcurrent⟩

end PushButton
