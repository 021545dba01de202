import PushButton.Proofs.Files.Growth
import PushButton.Workflow.Survey

/-!
# What a survey covers

A survey of a directory goes over everything below it that has the name of a workflow file, each
once and in the order of the names on the way. It makes one record about each of these places and a
record with the numbers at the end, provided that each of them holds a workflow or is refused
because of what it holds. A directory with such a name cannot be read at all and stops the survey.
-/

namespace PushButton

/-! ## The order of names -/

/-- A code point is determined by its number. -/
theorem Symbol.code_injective : Function.Injective Symbol.code := by
  intro s s' heq
  cases s with
  | char c =>
    cases s' with
    | char c' => exact congrArg Symbol.char (Char.toNat_inj.mp heq)
    | lone i =>
      have hcode : c.toNat = 0xD800 + i.val := heq
      have hv : c.toNat < 0xD800 ∨ (0xDFFF < c.toNat ∧ c.toNat < 0x110000) := c.valid
      omega
  | lone i =>
    cases s' with
    | char c =>
      have hcode : 0xD800 + i.val = c.toNat := heq
      have hv : c.toNat < 0xD800 ∨ (0xDFFF < c.toNat ∧ c.toNat < 0x110000) := c.valid
      omega
    | lone i' =>
      have hcode : 0xD800 + i.val = 0xD800 + i'.val := heq
      exact congrArg Symbol.lone (Fin.ext (by omega))

namespace Text

/-- A text is not in front of one that begins with a smaller code point. -/
theorem le_cons_iff {x y : Symbol} {a b : Text} : le (x :: a) (y :: b) = true ↔
    x.code < y.code ∨ x = y ∧ le a b = true := by
  rw [le, Bool.or_eq_true, Bool.and_eq_true, decide_eq_true_eq, beq_iff_eq,
    Symbol.code_injective.eq_iff]

/-- Of two texts one is in front of the other. -/
theorem le_total (a b : Text) : (le a b || le b a) = true := by
  induction a generalizing b with
  | nil => simp [le]
  | cons x a ih =>
    cases b with
    | nil => simp [le]
    | cons y b =>
      have hrest := ih b
      rw [Bool.or_eq_true] at hrest ⊢
      rw [le_cons_iff, le_cons_iff]
      rcases Nat.lt_trichotomy x.code y.code with hless | hsame | hgreater
      · exact .inl (.inl hless)
      · obtain rfl := Symbol.code_injective hsame
        exact hrest.imp (fun h => .inr ⟨rfl, h⟩) fun h => .inr ⟨rfl, h⟩
      · exact .inr (.inl hgreater)

/-- The order of texts is transitive. -/
theorem le_trans {a b c : Text} (hab : le a b = true) (hbc : le b c = true) : le a c = true := by
  induction a generalizing b c with
  | nil => rfl
  | cons x a ih =>
    cases b with
    | nil => cases hab
    | cons y b =>
      cases c with
      | nil => cases hbc
      | cons z c =>
        rw [le_cons_iff] at hab hbc ⊢
        obtain hxy | ⟨rfl, hab⟩ := hab
        · obtain hyz | ⟨rfl, -⟩ := hbc
          · exact .inl (Nat.lt_trans hxy hyz)
          · exact .inl hxy
        · obtain hyz | ⟨rfl, hbc⟩ := hbc
          · exact .inl hyz
          · exact .inr ⟨rfl, ih hab hbc⟩

/-- Different texts are in front of each other in one way only. -/
theorem le_antisymm {a b : Text} (hab : le a b = true) (hba : le b a = true) : a = b := by
  induction a generalizing b with
  | nil =>
    cases b with
    | nil => rfl
    | cons y b => cases hba
  | cons x a ih =>
    cases b with
    | nil => cases hab
    | cons y b =>
      rw [le_cons_iff] at hab hba
      obtain hxy | ⟨rfl, hab⟩ := hab
      · obtain hyx | ⟨rfl, -⟩ := hba
        · omega
        · omega
      · obtain hxx | ⟨-, hba⟩ := hba
        · omega
        · rw [ih hab hba]

end Text

namespace Survey

/-- The order of names on the way is decided by the first names that differ. -/
theorem before_cons_iff {x y : Text} {a b : List Text} : before (x :: a) (y :: b) = true ↔
    x = y ∧ before a b = true ∨ x ≠ y ∧ Text.le x y = true := by
  rw [before]
  split
  · next h => simp [h]
  · next h => simp [h]

/-- Of two rows of names one is in front of the other. -/
theorem before_total (a b : List Text) : (before a b || before b a) = true := by
  induction a generalizing b with
  | nil => simp [before]
  | cons x a ih =>
    cases b with
    | nil => simp [before]
    | cons y b =>
      have hrest := ih b
      have hfirst := Text.le_total x y
      rw [Bool.or_eq_true] at hrest hfirst ⊢
      rw [before_cons_iff, before_cons_iff]
      by_cases h : x = y
      · exact hrest.imp (fun hab => .inl ⟨h, hab⟩) fun hba => .inl ⟨h.symm, hba⟩
      · exact hfirst.imp (fun hxy => .inr ⟨h, hxy⟩) fun hyx => .inr ⟨Ne.symm h, hyx⟩

/-- The order of names on the way is transitive. -/
theorem before_trans {a b c : List Text} (hab : before a b = true) (hbc : before b c = true) :
    before a c = true := by
  induction a generalizing b c with
  | nil => simp [before]
  | cons x a ih =>
    cases b with
    | nil => cases hab
    | cons y b =>
      cases c with
      | nil => cases hbc
      | cons z c =>
        rw [before_cons_iff] at hab hbc ⊢
        obtain ⟨rfl, hab⟩ | ⟨hxy, hle⟩ := hab
        · obtain ⟨rfl, hbc⟩ | hbc := hbc
          · exact .inl ⟨rfl, ih hab hbc⟩
          · exact .inr hbc
        · obtain ⟨rfl, -⟩ | ⟨-, hle'⟩ := hbc
          · exact .inr ⟨hxy, hle⟩
          · refine .inr ⟨?_, Text.le_trans hle hle'⟩
            rintro rfl
            exact hxy (Text.le_antisymm hle hle')

/-- A common way in front does not matter. -/
theorem before_append (way a b : List Text) : before (way ++ a) (way ++ b) = before a b := by
  induction way with
  | nil => rfl
  | cons x way ih =>
    rw [List.cons_append, List.cons_append, before, if_pos rfl, ih]

end Survey

/-! ## What there is below a location -/

namespace Files

/-- A file system as there are: a tree in which nothing is listed twice, and whose names lead down. -/
structure IsSystem (fs : Files) : Prop extends IsTree fs where
  /-- Each place is listed once. -/
  once : (fs.entries.map (·.1)).Nodup
  /-- The root is not listed, and no name is a pair of dots. -/
  named : ∀ entry ∈ fs.entries, entry.1 ≠ [] ∧ (".." : Text) ∉ entry.1

variable {fs : Files} {l : Location}

/-- What is listed for a place is there. -/
theorem IsSystem.at?_eq_some_iff (hfs : fs.IsSystem) (hl : l ≠ []) {e : Entry} :
    fs.at? l = some e ↔ (l, e) ∈ fs.entries := by
  have honce := hfs.once
  unfold at?
  rw [if_neg (by simpa using hl)]
  generalize fs.entries = entries at honce
  induction entries with
  | nil => simp
  | cons entry rest ih =>
    obtain ⟨place, what⟩ := entry
    rw [List.map_cons, List.nodup_cons] at honce
    by_cases hplace : place = l
    · subst hplace
      have hout : (place, e) ∉ rest := fun hmem => honce.1 (List.mem_map.mpr ⟨_, hmem, rfl⟩)
      simp [hout, eq_comm]
    · have hne : (l, e) ≠ (place, what) := fun h => hplace (Prod.mk.inj h).1.symm
      simp [hplace, hne, ih honce.2]

/-- What is below a location is there. -/
theorem IsSystem.mem_below_iff (hfs : fs.IsSystem) {names : List Text} {e : Entry} :
    (names, e) ∈ fs.below l ↔ names ≠ [] ∧ fs.at? (l ++ names) = some e := by
  have hmem : (names, e) ∈ fs.below l ↔ names ≠ [] ∧ (l ++ names, e) ∈ fs.entries := by
    unfold below
    rw [List.mem_filterMap]
    constructor
    · rintro ⟨⟨place, what⟩, hplace, hsome⟩
      dsimp only at hsome
      split at hsome
      · next h =>
        rw [Bool.and_eq_true, List.isPrefixOf_iff_prefix, decide_eq_true_eq] at h
        obtain ⟨⟨rest, rfl⟩, hne⟩ := h
        rw [List.drop_left] at hsome
        cases hsome
        exact ⟨fun hnil => hne (by rw [hnil, List.append_nil]), hplace⟩
      · cases hsome
    · rintro ⟨hnames, hplace⟩
      refine ⟨_, hplace, ?_⟩
      have hbelow : (l.isPrefixOf (l ++ names) && l ≠ l ++ names) = true := by
        simp [List.isPrefixOf_iff_prefix, hnames]
      dsimp only
      rw [if_pos hbelow, List.drop_left]
  rw [hmem]
  refine and_congr_right fun hnames => (hfs.at?_eq_some_iff ?_).symm
  simp [hnames]

/-- Below a location, nothing is listed twice. -/
theorem IsSystem.nodup_below (hfs : fs.IsSystem) (l : Location) :
    ((fs.below l).map (·.1)).Nodup := by
  have honce := hfs.once
  unfold below
  generalize fs.entries = entries at honce
  induction entries with
  | nil => exact List.nodup_nil
  | cons entry rest ih =>
    obtain ⟨place, what⟩ := entry
    rw [List.map_cons, List.nodup_cons] at honce
    rw [List.filterMap_cons]
    dsimp only
    split
    · exact ih honce.2
    · next item hitem =>
      rw [List.map_cons, List.nodup_cons]
      refine ⟨?_, ih honce.2⟩
      intro hmem
      obtain ⟨⟨names, e⟩, hbelow, hnames⟩ := List.mem_map.mp hmem
      obtain ⟨⟨place', what'⟩, hplace', hsome⟩ := List.mem_filterMap.mp hbelow
      split at hitem
      · next h =>
        dsimp only at hsome
        split at hsome
        · next h' =>
          rw [Bool.and_eq_true, List.isPrefixOf_iff_prefix] at h h'
          obtain ⟨⟨way, rfl⟩, -⟩ := h
          obtain ⟨⟨way', rfl⟩, -⟩ := h'
          rw [List.drop_left] at hitem hsome
          cases hitem
          cases hsome
          subst hnames
          exact honce.1 (List.mem_map.mpr ⟨_, hplace', rfl⟩)
        · cases hsome
      · cases hitem

/-- A path goes on below the location that it leads to. -/
theorem IsSystem.locate_under (hfs : fs.IsSystem) {root : Path} (hroot : fs.locate root = .ok l)
    {names : List Text} {e : Entry} (hnames : names ≠ []) (he : fs.at? (l ++ names) = some e) :
    fs.locate { root with names := root.names ++ names } = .ok (l ++ names) := by
  have hplace : (l ++ names, e) ∈ fs.entries :=
    (hfs.at?_eq_some_iff (by simp [hnames])).mp he
  have hdots : (".." : Text) ∉ names := fun hmem =>
    (hfs.named _ hplace).2 (List.mem_append_right _ hmem)
  exact (walk_append hroot names).trans (hfs.toIsTree.walk hdots he)

end Files

namespace Survey

variable {fs : Files} {root : Path} {l : Location}

/-! ## The places -/

/-- The names on the way to the places of a survey, before they are put in order. -/
def found (fs : Files) (l : Location) : List (List Text) :=
  ((fs.below l).map (·.1)).filter fun names => isWorkflowName (names.getLast?.getD [])

/-- The places of a survey are what is found below the root, put in order. -/
theorem places_eq (hroot : fs.locate root = .ok l) : places fs root =
    ((found fs l).mergeSort before).map fun names => { root with names := root.names ++ names } := by
  have hfound : ((fs.below l).filterMap fun entry =>
      if isWorkflowName (entry.1.getLast?.getD []) = true then some entry.1 else none) =
        found fs l := by
    unfold found
    rw [← List.filterMap_eq_filter, List.filterMap_map]
    refine congrArg (List.filterMap · _) (funext fun entry => ?_)
    simp only [Function.comp, Option.guard]
  unfold places
  rw [hroot, ← hfound]

/-- The places of a survey are those below the root with the name of a workflow file. -/
theorem mem_places_iff (hfs : fs.IsSystem) (hroot : fs.locate root = .ok l) {p : Path} :
    p ∈ places fs root ↔ ∃ names, names ≠ [] ∧
      isWorkflowName (names.getLast?.getD []) = true ∧ (fs.at? (l ++ names)).isSome = true ∧
      p = { root with names := root.names ++ names } := by
  simp only [places_eq hroot, found, List.mem_map, List.mem_mergeSort, List.mem_filter]
  constructor
  · rintro ⟨names, ⟨⟨⟨names, e⟩, hbelow, rfl⟩, hname⟩, rfl⟩
    obtain ⟨hnames, he⟩ := hfs.mem_below_iff.mp hbelow
    exact ⟨names, hnames, hname, by rw [he]; rfl, rfl⟩
  · rintro ⟨names, hnames, hname, hthere, rfl⟩
    obtain ⟨e, he⟩ := Option.isSome_iff_exists.mp hthere
    exact ⟨names, ⟨⟨(names, e), hfs.mem_below_iff.mpr ⟨hnames, he⟩, rfl⟩, hname⟩, rfl⟩

/-- The places of a survey are in order, and none is gone over twice. -/
theorem pairwise_places (hfs : fs.IsSystem) (hroot : fs.locate root = .ok l) :
    (places fs root).Pairwise fun p q => before p.names q.names = true ∧ p ≠ q := by
  have htrans (a b c : List Text) (hab : before a b = true) (hbc : before b c = true) :
      before a c = true := before_trans hab hbc
  have hsorted : ((found fs l).mergeSort before).Pairwise fun a b => before a b = true :=
    List.pairwise_mergeSort htrans before_total _
  have hnodup : ((found fs l).mergeSort before).Nodup :=
    (List.mergeSort_perm _ _).nodup_iff.mpr ((hfs.nodup_below l).filter _)
  rw [places_eq hroot, List.pairwise_map]
  refine hsorted.imp₂ (fun a b hbefore hne => ⟨?_, fun h => hne ?_⟩) hnodup
  · exact (before_append root.names a b).trans hbefore
  · exact List.append_cancel_left (Path.mk.inj h).2

/-! ## The records -/

/-- The record of a survey about a place: it holds a workflow, or why it holds none. -/
def line (fs : Files) (p : Path) : Record :=
  match Workflow.load fs p with
  | .ok w => record .info ("OK  " ++ p.shown ++ " (" ++ Text.ofNat w.actions.length ++ " actions)")
  | .error e => record .error ("ERR " ++ p.shown ++ ": " ++ (e.failure p).message)

/-- A place holds a workflow. -/
def isGood (fs : Files) (p : Path) : Bool := (Workflow.load fs p).toOption.isSome

/-- A place holds a workflow, or is refused because of what it holds. -/
def IsJudged (fs : Files) (p : Path) : Prop :=
  ∀ e, Workflow.load fs p = .error e → (e.failure p).kind.isInvalid = true

/-- The record of a survey about the numbers of good places and of all places. -/
def summary (good all : Nat) : Record :=
  record .info ("Validated " ++ Text.ofNat good ++ "/" ++ Text.ofNat all ++ " workflow(s).")

/-- The findings after a place that is judged. -/
theorem visit_eq {p : Path} (hp : IsJudged fs p) (found : Findings) : visit fs found p =
    .ok ⟨found.records ++ [line fs p], found.good + if isGood fs p then 1 else 0,
      found.bad + if isGood fs p then 0 else 1⟩ := by
  unfold IsJudged at hp
  unfold visit line isGood
  cases hload : Workflow.load fs p with
  | ok w => rfl
  | error e =>
    dsimp only
    rw [if_pos (hp e hload)]
    rfl

/-- A survey of places that are judged goes on to the last one. The induction is on the places. -/
theorem visitAll_eq {ps : List Path} (hps : ∀ p ∈ ps, IsJudged fs p) (found : Findings) :
    visitAll fs found ps =
      (⟨found.records ++ ps.map (line fs), found.good + ps.countP (isGood fs),
        found.bad + ps.countP fun p => !isGood fs p⟩, none) := by
  induction ps generalizing found with
  | nil => simp [visitAll]
  | cons p rest ih =>
    rw [visitAll, visit_eq (hps p List.mem_cons_self)]
    dsimp only
    rw [ih fun q hq => hps q (List.mem_cons_of_mem _ hq)]
    by_cases hgood : isGood fs p = true
    · simp [hgood, Nat.add_assoc, Nat.add_comm 1]
    · simp [hgood, Nat.add_assoc, Nat.add_comm 1]

/-- A survey makes one record about each place and one about the numbers, and nothing is wrong when
all places are good. -/
theorem run_eq (hroot : fs.has root = true) (hplaces : ∀ p ∈ places fs root, IsJudged fs p) :
    run fs root = ((places fs root).map (line fs) ++
      [summary ((places fs root).countP (isGood fs)) (places fs root).length],
      .ok ((places fs root).all (isGood fs))) := by
  have hall : ∀ ps : List Path, decide (ps.countP (fun p => !isGood fs p) = 0) =
      ps.all (isGood fs) := by
    intro ps
    rw [Bool.eq_iff_iff]
    simp [List.countP_eq_zero]
  have hcount (ps : List Path) :
      ps.countP (isGood fs) + ps.countP (fun p => !isGood fs p) = ps.length := by
    rw [ps.length_eq_countP_add_countP (isGood fs)]
    congr 2
    funext p
    cases isGood fs p <;> rfl
  unfold run
  rw [hroot, visitAll_eq hplaces]
  simp only [Bool.not_true, Bool.false_eq_true, if_false, List.nil_append, Nat.zero_add, hcount,
    hall]
  rfl

end Survey

end PushButton
