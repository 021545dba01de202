import PushButton.Proofs.Results
import PushButton.Yaml.Document

/-!
# Where a document is refused

The flaws with which a text is refused come from few places: a node is malformed or nested too
deeply, or the tokens end at a flaw; and data are malformed, or a scalar of the document is refused.
-/

namespace PushButton

namespace Yaml

/-! ## Nodes -/

/-- A step of reading fails with the flaw behind the last token, or it finds nodes that are
malformed or nested too deeply; the flaw behind the last token stays. -/
def Careful {α : Type} (m : Read α) : Prop :=
  ∀ r : Reader, Gives (fun f => r.ending = some f ∨ f = .malformed ∨ f = .tooDeep)
    (fun x : α × Reader => x.2.ending = r.ending) (m.run r)

namespace Careful

variable {α β : Type} {m : Read α} {f : α → Read β}

/-- A value. -/
theorem value (x : α) : Careful (pure x : Read α) := fun _ => rfl

/-- Two steps in a row. -/
theorem bind (h : Careful m) (hf : ∀ x, Careful (f x)) : Careful (m >>= f) := by
  intro r
  rw [StateT.run_bind]
  refine Gives.bind (h r) fun x hx => ?_
  have hnext := hf x.1 x.2
  rwa [hx] at hnext

/-- A choice of two steps. -/
theorem ite {c : Prop} [Decidable c] {m' : Read α} (h : Careful m) (h' : Careful m') :
    Careful (if c then m else m') := by
  split
  · exact h
  · exact h'

/-- A refusal. -/
theorem refuse : Careful (Read.refuse : Read α) := fun _ => .inr (.inl rfl)

/-- A change that leaves the flaw behind the last token. -/
theorem changed {change : Reader → Reader} (h : ∀ r, (change r).ending = r.ending) :
    Careful (modify change : Read PUnit) := h

/-- A look at what is known. -/
theorem get_bind {f : Reader → Read α} (h : ∀ r, Careful (f r)) : Careful (get >>= f) :=
  fun r => h r r

/-- A look at the next token. -/
theorem peek : Careful Read.peek := by
  intro r
  unfold Read.peek
  rw [StateT.run_bind, StateT.run_get]
  change Gives _ _ (StateT.run _ r)
  cases r.tokens with
  | nil =>
    change (r.ending = some (r.ending.getD .malformed)) ∨ _
    cases r.ending with
    | none => exact .inr (.inl rfl)
    | some f => exact .inl rfl
  | cons t ts => rfl

/-- A token is passed over. -/
theorem drop : Careful Read.drop := changed fun _ => rfl

/-- The next token is looked for in a list. -/
theorem sees (ts : List Token) : Careful (Read.sees ts) := peek.bind fun _ => .value _

/-- A token is taken where it stands. -/
theorem take (t : Token) : Careful (Read.take? t) :=
  peek.bind fun _ => .ite (drop.bind fun _ => .value _) (.value _)

/-- A token has to stand here. -/
theorem expect (t : Token) : Careful (Read.expect t) :=
  (take t).bind fun _ => .ite .refuse (.value _)

/-- A step inside of one more sequence or mapping. -/
theorem nested (h : Careful m) : Careful (Read.nested m) := by
  have hinside : Careful (do
      modify fun r : Reader => { r with depth := r.depth + 1 }
      let x ← m
      modify fun r : Reader => { r with depth := r.depth - 1 }
      pure x : Read α) :=
    (changed (by exact fun _ => rfl)).bind fun _ => h.bind fun _ =>
      (changed (by exact fun _ => rfl)).bind fun _ => .value _
  refine get_bind fun r => .ite ?_ hinside
  exact fun _ => .inr (.inr rfl)

/-- A node is given a name. -/
theorem name (anchor : Option Text) (n : Node) : Careful (Read.name anchor n) := by
  cases anchor with
  | none => exact .value ()
  | some a => exact changed fun _ => rfl

/-- The sequence or mapping around the place is given a name. -/
theorem nameEnclosing (anchor : Option Text) (isMap : Bool) :
    Careful (Read.nameEnclosing anchor isMap) := get_bind fun _ => name anchor _

/-- A node is looked up by its name. -/
theorem named (anchor : Text) : Careful (Read.named anchor) := by
  refine get_bind fun r => ?_
  split
  · exact .value _
  · exact .value _
  · exact .refuse

/-- A name has to be new. -/
theorem newName (anchor : Option Text) : Careful (Read.newName anchor) :=
  get_bind fun _ => .ite .refuse (.value _)

/-- The text of a tag is looked up by its handle. -/
theorem tagText (handle : Option Text) (suffix : Text) : Careful (Read.tagText handle suffix) := by
  cases handle with
  | none => exact .value suffix
  | some h =>
    refine get_bind fun r => ?_
    split
    · exact .value _
    · exact .refuse

/-- The properties of a node. -/
theorem properties : Careful Read.properties := by
  unfold Read.properties
  dsimp only
  refine Careful.bind (peek.bind fun t => ?_) fun anchor => ?_
  · split
    · exact drop.bind fun _ => .value _
    · exact .value _
  cases anchor with
  | some a =>
    refine Careful.bind (peek.bind fun t => ?_) fun tag => Careful.bind ?_ fun _ => .value _
    · split
      · exact drop.bind fun _ => .value _
      · exact .value _
    · cases tag with
      | none => exact .value none
      | some tag => exact (tagText tag.1 tag.2).bind fun _ => .value _
  | none =>
    refine Careful.bind (peek.bind fun t => ?_) fun tag => ?_
    · split
      · exact drop.bind fun _ => .value _
      · exact .value _
    cases tag with
    | none => exact (value none).bind fun _ => (value none).bind fun _ => .value _
    | some tag =>
      -- a name can also stand behind the tag
      refine Careful.bind (peek.bind fun t => ?_) fun anchor => ?_
      · split
        · exact drop.bind fun _ => .value _
        · exact .value _
      · exact Careful.bind ((tagText tag.1 tag.2).bind fun _ => .value _) fun _ => .value _

end Careful

/-- All steps of reading nodes are careful with some fuel. -/
structure CarefulNodes (fuel : Nat) : Prop where
  node : ∀ position, Careful (readNode fuel position)
  orMissing : ∀ ends position, Careful (readUnless fuel ends position)
  entries : Careful (readEntries fuel)
  looseEntries : Careful (readLooseEntries fuel)
  pairs : Careful (readPairs fuel)
  flowItems : ∀ first, Careful (readFlowItems fuel first)
  flowPairs : ∀ first, Careful (readFlowPairs fuel first)

namespace CarefulNodes

variable {β : Type} {fuel : Nat}

/-- A node at the place. -/
theorem readNode (h : CarefulNodes fuel) (position : Position) :
    Careful (readNode (fuel + 1) position) := by
  unfold Yaml.readNode
  refine Careful.peek.bind fun t => ?_
  split
  · exact Careful.drop.bind fun _ => .named _
  · refine Careful.properties.bind fun ⟨anchor, tag⟩ => ?_
    have hitems {items : Read (List Node)} (h : Careful items) : Careful (do
        Read.newName anchor
        let items ← Read.nested (do Read.nameEnclosing anchor false; items)
        Read.name anchor (.sequence (Read.kindTag tag .sequence) items)
        pure (.sequence (Read.kindTag tag .sequence) items) : Read Node) :=
      (Careful.newName anchor).bind fun _ =>
        (Careful.nested ((Careful.nameEnclosing anchor false).bind fun _ => h)).bind fun _ =>
          (Careful.name anchor _).bind fun _ => .value _
    have hpairs {pairs : Read (List (Node × Node))} (h : Careful pairs) : Careful (do
        Read.newName anchor
        let pairs ← Read.nested (do Read.nameEnclosing anchor true; pairs)
        Read.name anchor (.mapping (Read.kindTag tag .mapping) pairs)
        pure (.mapping (Read.kindTag tag .mapping) pairs) : Read Node) :=
      (Careful.newName anchor).bind fun _ =>
        (Careful.nested ((Careful.nameEnclosing anchor true).bind fun _ => h)).bind fun _ =>
          (Careful.name anchor _).bind fun _ => .value _
    have hscalar (n : Node) : Careful (do
        Read.newName anchor
        Read.name anchor n
        pure n) :=
      (Careful.newName anchor).bind fun _ => (Careful.name anchor n).bind fun _ => .value _
    dsimp only
    -- the node begins with the next token, wherever its name and its tag stand
    refine Careful.peek.bind fun t => ?_
    split
    · exact hitems h.looseEntries
    · exact Careful.drop.bind fun _ => hscalar _
    · exact Careful.drop.bind fun _ => hitems (h.flowItems true)
    · exact Careful.drop.bind fun _ => hpairs (h.flowPairs true)
    · refine .ite (Careful.drop.bind fun _ => hitems h.entries) <|
        .ite (Careful.drop.bind fun _ => hpairs h.pairs) <| .ite (hscalar _) .refuse

/-- A node, or a missing one. -/
theorem readUnless (h : CarefulNodes fuel) (ends : List Token) (position : Position) :
    Careful (readUnless (fuel + 1) ends position) := by
  unfold Yaml.readUnless
  exact (Careful.sees ends).bind fun _ => .ite (.value _) (h.node position)

/-- The entries of a block. -/
theorem readEntries (h : CarefulNodes fuel) : Careful (readEntries (fuel + 1)) := by
  unfold Yaml.readEntries
  refine (Careful.take .entry).bind fun _ => .ite ?_ ?_
  · exact (h.orMissing _ _).bind fun _ => h.entries.bind fun _ => .value _
  · exact (Careful.expect .blockEnd).bind fun _ => .value _

/-- The entries of a sequence that is not indented. -/
theorem readLooseEntries (h : CarefulNodes fuel) : Careful (readLooseEntries (fuel + 1)) := by
  unfold Yaml.readLooseEntries
  refine (Careful.take .entry).bind fun _ => .ite ?_ (.value _)
  exact (h.orMissing _ _).bind fun _ => h.looseEntries.bind fun _ => .value _

/-- A value behind its mark, or a missing one. -/
theorem valueOrMissing (h : CarefulNodes fuel) (ends : List Token) (position : Position)
    {f : Node → Read β} (hf : ∀ n, Careful (f n)) : Careful (do
      let v ← if ← Read.take? .value then Yaml.readUnless fuel ends position
        else pure Read.missing
      f v) := by
  refine (Careful.take .value).bind fun _ => .ite ?_ ?_
  · exact (h.orMissing ends position).bind hf
  · exact (Careful.value _).bind hf

/-- The keys and values of a block. -/
theorem readPairs (h : CarefulNodes fuel) : Careful (readPairs (fuel + 1)) := by
  unfold Yaml.readPairs
  dsimp only
  refine (Careful.take .blockEnd).bind fun _ => .ite (.value _) ?_
  refine (Careful.expect .key).bind fun _ => (h.orMissing _ _).bind fun k => ?_
  exact h.valueOrMissing _ _ fun v => h.pairs.bind fun _ => .value _

/-- The nodes up to a closing bracket. -/
theorem readFlowItems (h : CarefulNodes fuel) (first : Bool) :
    Careful (readFlowItems (fuel + 1) first) := by
  have hafter : Careful (do
      if ← Read.take? .key then do
        let pair ← Read.nested do
          let k ← Yaml.readUnless fuel [.value, .comma, .flowSequenceEnd] .flow
          let v ← if ← Read.take? .value then
              Yaml.readUnless fuel [.comma, .flowSequenceEnd] .flow
            else pure Read.missing
          pure (k, v)
        let rest ← Yaml.readFlowItems fuel false
        pure (.mapping .mapping [pair] :: rest)
      else if ← Read.take? .flowSequenceEnd then pure []
      else do
        let n ← Yaml.readNode fuel .flow
        let rest ← Yaml.readFlowItems fuel false
        pure (n :: rest) : Read (List Node)) := by
    refine (Careful.take .key).bind fun _ => .ite ?_ ?_
    · refine Careful.bind (Careful.nested ?_) fun _ => (h.flowItems false).bind fun _ => .value _
      exact (h.orMissing _ _).bind fun _ => h.valueOrMissing _ _ fun _ => .value _
    · refine (Careful.take .flowSequenceEnd).bind fun _ => .ite (.value _) ?_
      exact (h.node .flow).bind fun _ => (h.flowItems false).bind fun _ => .value _
  unfold Yaml.readFlowItems
  refine (Careful.take .flowSequenceEnd).bind fun _ => .ite (.value _) ?_
  exact .ite ((Careful.expect .comma).bind fun _ => hafter) hafter

/-- The keys and values up to a closing brace. -/
theorem readFlowPairs (h : CarefulNodes fuel) (first : Bool) :
    Careful (readFlowPairs (fuel + 1) first) := by
  have hafter : Careful (do
      if ← Read.take? .key then do
        let k ← Yaml.readUnless fuel [.value, .comma, .flowMappingEnd] .flow
        let v ← if ← Read.take? .value then
            Yaml.readUnless fuel [.comma, .flowMappingEnd] .flow
          else pure Read.missing
        let rest ← Yaml.readFlowPairs fuel false
        pure ((k, v) :: rest)
      else if ← Read.take? .flowMappingEnd then pure []
      else do
        let k ← Yaml.readNode fuel .flow
        let rest ← Yaml.readFlowPairs fuel false
        pure ((k, Read.missing) :: rest) : Read (List (Node × Node))) := by
    refine (Careful.take .key).bind fun _ => .ite ?_ ?_
    · exact (h.orMissing _ _).bind fun _ => h.valueOrMissing _ _ fun _ =>
        (h.flowPairs false).bind fun _ => .value _
    · refine (Careful.take .flowMappingEnd).bind fun _ => .ite (.value _) ?_
      exact (h.node .flow).bind fun _ => (h.flowPairs false).bind fun _ => .value _
  unfold Yaml.readFlowPairs
  refine (Careful.take .flowMappingEnd).bind fun _ => .ite (.value _) ?_
  exact .ite ((Careful.expect .comma).bind fun _ => hafter) hafter

end CarefulNodes

/-- All steps of reading nodes are careful. The induction is on the fuel. -/
theorem carefulNodes (fuel : Nat) : CarefulNodes fuel := by
  induction fuel with
  | zero =>
    exact ⟨fun _ => .refuse, fun _ _ => .refuse, .refuse, .refuse, .refuse, fun _ => .refuse,
      fun _ => .refuse⟩
  | succ fuel ih =>
    exact ⟨ih.readNode, ih.readUnless, ih.readEntries, ih.readLooseEntries, ih.readPairs,
      ih.readFlowItems, ih.readFlowPairs⟩

/-- The directives in front of a document. -/
theorem careful_readDirectives (fuel : Nat) (versioned : Bool) (handles : List (Text × Text)) :
    Careful (readDirectives fuel versioned handles) := by
  induction fuel generalizing versioned handles with
  | zero => exact .refuse
  | succ fuel ih =>
    unfold readDirectives
    refine Careful.peek.bind fun t => ?_
    split
    · exact .ite (Careful.refuse.bind fun _ => Careful.drop.bind fun _ => ih _ _)
        (Careful.drop.bind fun _ => ih _ _)
    · exact .ite (Careful.refuse.bind fun _ => Careful.drop.bind fun _ => ih _ _)
        (Careful.drop.bind fun _ => ih _ _)
    · exact Careful.drop.bind fun _ => ih _ _
    · exact .value _

/-- The marks of the end of a document. -/
theorem careful_dropDocumentEnds (fuel : Nat) : Careful (dropDocumentEnds fuel) := by
  induction fuel with
  | zero => exact .value ()
  | succ fuel ih => exact (Careful.take .documentEnd).bind fun _ => .ite ih (.value _)

/-- A document. -/
theorem careful_readDocument (fuel : Nat) : Careful (readDocument fuel) := by
  have hend (node : Node) : Careful (do
      dropDocumentEnds fuel
      if ← Read.take? .finish then pure (some node) else Read.refuse) :=
    (careful_dropDocumentEnds fuel).bind fun _ =>
      (Careful.take .finish).bind fun _ => .ite (.value _) .refuse
  have hnode := (carefulNodes fuel).node .block
  unfold readDocument
  refine Careful.peek.bind fun t => ?_
  dsimp only
  split
  case h_1 => exact .value _
  case h_4 => exact hnode.bind hend
  all_goals
    -- directives or the mark of a document are in front of it
    refine (careful_readDirectives fuel false []).bind fun handles => ?_
    refine (Careful.changed (by exact fun _ => rfl)).bind fun _ => ?_
    refine (Careful.expect .documentStart).bind fun _ => Careful.peek.bind fun t => ?_
    split
    case h_5 => exact hnode.bind hend
    all_goals exact (Careful.value _).bind hend

/-- A text without a node is malformed or nested too deeply, or its tokens end at a flaw. -/
theorem flaw_of_ofText {t : Text} {f : Flaw} (h : Node.ofText t = .error f) :
    (tokens t).2 = some f ∨ f = .malformed ∨ f = .tooDeep := by
  unfold Node.ofText at h
  split at h
  · cases h
    exact .inr (.inl rfl)
  · dsimp only at h
    have hread := careful_readDocument (3 * (tokens t).1.length + 3)
      { tokens := (tokens t).1, ending := (tokens t).2 }
    have hnode := hread.map (f := Prod.fst) (Q := fun _ => True) fun _ _ => trivial
    rwa [h] at hnode

/-! ## Data -/

mutual

/-- The nodes of a tree. -/
def Node.parts : Node → List Node
  | .scalar tag t => [.scalar tag t]
  | .sequence tag items => .sequence tag items :: partsOfItems items
  | .mapping tag pairs => .mapping tag pairs :: partsOfPairs pairs
  | .enclosing isMap distance => [.enclosing isMap distance]

/-- The nodes of several trees. -/
def Node.partsOfItems : List Node → List Node
  | [] => []
  | n :: rest => n.parts ++ partsOfItems rest

/-- The nodes of keys and values. -/
def Node.partsOfPairs : List (Node × Node) → List Node
  | [] => []
  | (k, v) :: rest => k.parts ++ v.parts ++ partsOfPairs rest

end

/-- A node is among its parts. -/
theorem Node.mem_parts (n : Node) : n ∈ n.parts := by
  cases n <;> simp [Node.parts]

variable {α β : Type} {E : Flaw → Prop}

/-- A flaw of a value has a property. -/
abbrev FlawsIn (E : Flaw → Prop) (b : Built α) : Prop :=
  Gives (fun e : Nat × Flaw => E e.2) (fun _ => True) b

namespace FlawsIn

/-- Both values. -/
theorem both {a : Built α} {b : Built β} (ha : FlawsIn E a) (hb : FlawsIn E b) :
    FlawsIn E (Built.both a b) := by
  cases a with
  | ok x =>
    cases b with
    | ok y => trivial
    | error f => exact hb
  | error e =>
    cases b with
    | ok y => exact ha
    | error f =>
      change E (if f.1 < e.1 then f else e).2
      split
      · exact hb
      · exact ha

/-- A changed value. -/
theorem changed {b : Built α} (f : α → β) (h : FlawsIn E b) : FlawsIn E (b.map f) :=
  h.map fun _ _ => trivial

/-- A malformed part. -/
theorem refuse (hmalformed : E .malformed) (level : Nat) :
    FlawsIn E (Built.refuse level : Built α) := hmalformed

/-- All values. -/
theorem all {bs : List (Built α)} (h : ∀ b ∈ bs, FlawsIn E b) : FlawsIn E (Built.all bs) := by
  induction bs with
  | nil => trivial
  | cons b bs ih =>
    obtain ⟨hb, hbs⟩ := List.forall_mem_cons.mp h
    exact (hb.both (ih hbs)).changed _

end FlawsIn

/-- The flaws of entries have a property. -/
def Entries.FlawsIn (E : Flaw → Prop) (e : Entries) : Prop :=
  (∀ b ∈ e.merged, Yaml.FlawsIn E b) ∧ ∀ b ∈ e.own, Yaml.FlawsIn E b

/-- All entries. -/
theorem Entries.FlawsIn.all {e : Entries} (hmalformed : E .malformed) (h : e.FlawsIn E)
    (level : Nat) : Yaml.FlawsIn E (e.all level) := by
  unfold Entries.all
  refine Gives.ite (fun _ => hmalformed) fun _ => ?_
  exact (Yaml.FlawsIn.all (List.forall_mem_append.mpr h)).changed _

/-- The flaws of a scalar have a property. -/
def Node.FlawsIn (E : Flaw → Prop) (n : Node) : Prop :=
  n.tag.isCollection = false → Gives E (fun _ => True) (leafValue n)

/-- A scalar. -/
theorem flawsIn_leafDatum {n : Node} (h : n.FlawsIn E) (htag : n.tag.isCollection = false)
    (level : Nat) : FlawsIn E (leafDatum level n) := by
  have hvalue := h htag
  unfold leafDatum
  cases hleaf : leafValue n with
  | ok d => trivial
  | error f => rwa [hleaf] at hvalue

/-- A key. -/
theorem flawsIn_key {k : Node} {level : Nat} (hk : ∀ m ∈ k.parts, m.FlawsIn E)
    (hbuild : FlawsIn E (build level k)) : FlawsIn E (if k.tag = .value then
      match k with
      | .scalar _ t => .ok (.text t)
      | n => leafDatum level n
    else build level k) := by
  refine Gives.ite (fun htag => ?_) fun _ => hbuild
  split
  · trivial
  · exact flawsIn_leafDatum (hk k k.mem_parts) (by rw [htag]; rfl) level

/-- No entries. -/
theorem Entries.FlawsIn.nil : ({} : Entries).FlawsIn E := ⟨nofun, nofun⟩

/-- An entry. -/
theorem flawsIn_entryOf (hE : E .malformed) (level : Nat) (key : Node) {k v : Built Datum}
    (hk : FlawsIn E k) (hv : FlawsIn E v) : FlawsIn E (entryOf level key k v) := by
  refine FlawsIn.both ?_ hv
  exact Gives.ite (fun _ => (hk.both (FlawsIn.refuse hE level)).changed _) fun _ => hk

mutual

/-- The flaws of a tree are those of its scalars, or it is malformed. -/
theorem flawsIn_build (hE : E .malformed) : ∀ (n : Node) (level : Nat),
    (∀ m ∈ n.parts, m.FlawsIn E) → FlawsIn E (build level n)
  | .enclosing isMap _, level, _ => trivial
  | .scalar tag t, level, h => by
    unfold build
    refine Gives.ite (fun _ => hE) fun htag => ?_
    exact flawsIn_leafDatum (h _ (Node.mem_parts _)) (Bool.not_eq_true _ ▸ htag) level
  | .sequence tag items, level, h => by
    have hitems : ∀ m ∈ Node.partsOfItems items, m.FlawsIn E := fun m hm =>
      h m (by rw [Node.parts]; exact List.mem_cons_of_mem _ hm)
    have hlist := FlawsIn.all (flawsIn_buildItems hE items (level + 1) hitems)
    have hpairs := FlawsIn.all (flawsIn_buildPairs hE items (level + 1) hitems)
    unfold build
    split
    · exact hlist.changed _
    · exact hpairs.changed _
    · exact hpairs.changed _
    · exact hE
    · exact hE
    · exact hE
  | .mapping tag pairs, level, h => by
    have hpairs : ∀ m ∈ Node.partsOfPairs pairs, m.FlawsIn E := fun m hm =>
      h m (by rw [Node.parts]; exact List.mem_cons_of_mem _ hm)
    have hentries := (flawsIn_buildEntries hE pairs (level + 1) hpairs).all hE (level + 1)
    have hleaf : (Node.mapping tag pairs).FlawsIn E := h _ (Node.mem_parts _)
    unfold build
    cases tag with
    | mapping => exact hentries.changed _
    | set => exact hentries.changed _
    | sequence => exact hE
    | orderedMap => exact hE
    | pairs => exact hE
    | _ => exact flawsIn_leafDatum hleaf rfl level

/-- The flaws of items are those of their scalars. -/
theorem flawsIn_buildItems (hE : E .malformed) : ∀ (items : List Node) (level : Nat),
    (∀ m ∈ Node.partsOfItems items, m.FlawsIn E) → ∀ b ∈ buildItems level items, FlawsIn E b
  | [], level, _ => nofun
  | n :: rest, level, h => by
    rw [Node.partsOfItems, List.forall_mem_append] at h
    rw [buildItems, List.forall_mem_cons]
    exact ⟨flawsIn_build hE n level h.1, flawsIn_buildItems hE rest level h.2⟩

/-- The flaws of pairs are those of their scalars, or one is malformed. -/
theorem flawsIn_buildPairs (hE : E .malformed) : ∀ (items : List Node) (level : Nat),
    (∀ m ∈ Node.partsOfItems items, m.FlawsIn E) → ∀ b ∈ buildPairs level items, FlawsIn E b
  | [], level, _ => nofun
  | n :: rest, level, h => by
    rw [Node.partsOfItems, List.forall_mem_append] at h
    have hrest := flawsIn_buildPairs hE rest level h.2
    rw [buildPairs.eq_def]
    split
    · nofun
    · rename_i tag k v rest' heq
      obtain ⟨rfl, rfl⟩ := List.cons.inj heq
      have hparts : ∀ m ∈ k.parts ++ v.parts, m.FlawsIn E := fun m hm =>
        h.1 m (by simpa [Node.parts, Node.partsOfPairs] using .inr (List.mem_append.mp hm))
      obtain ⟨hk, hv⟩ := List.forall_mem_append.mp hparts
      refine List.forall_mem_cons.mpr ⟨?_, hrest⟩
      exact ((flawsIn_build hE k level hk).both (flawsIn_build hE v level hv)).changed _
    · rename_i heq
      obtain ⟨rfl, rfl⟩ := List.cons.inj heq
      exact List.forall_mem_cons.mpr ⟨.refuse hE level, hrest⟩

/-- The flaws of entries are those of their scalars. -/
theorem flawsIn_buildEntries (hE : E .malformed) : ∀ (pairs : List (Node × Node)) (level : Nat),
    (∀ m ∈ Node.partsOfPairs pairs, m.FlawsIn E) → (buildEntries level pairs).FlawsIn E
  | [], level, _ => .nil
  | (k, v) :: rest, level, h => by
    rw [Node.partsOfPairs, List.forall_mem_append, List.forall_mem_append] at h
    obtain ⟨⟨hk, hv⟩, hrest⟩ := h
    have hothers := flawsIn_buildEntries hE rest level hrest
    rw [buildEntries.eq_def]
    dsimp only
    split
    · -- a merge key: only mappings have entries that can be taken over
      cases v with
      | mapping tag pairs =>
        have hpairs := flawsIn_buildEntries hE pairs level fun m hm =>
          hv m (by rw [Node.parts]; exact List.mem_cons_of_mem _ hm)
        exact ⟨List.forall_mem_append.mpr
          ⟨List.forall_mem_append.mpr hpairs, hothers.1⟩, hothers.2⟩
      | sequence tag items =>
        have hitems := flawsIn_buildMerged hE items level fun m hm =>
          hv m (by rw [Node.parts]; exact List.mem_cons_of_mem _ hm)
        exact ⟨List.forall_mem_append.mpr ⟨hitems.1, hothers.1⟩, hothers.2⟩
      | scalar tag t => exact hothers
      | enclosing isMap distance => cases isMap <;> exact hothers
    · have hkey := flawsIn_key hk (flawsIn_build hE k level hk)
      refine ⟨hothers.1, List.forall_mem_cons.mpr ⟨?_, hothers.2⟩⟩
      exact flawsIn_entryOf hE level k hkey (flawsIn_build hE v level hv)

/-- The flaws of entries that are taken over are those of their scalars. -/
theorem flawsIn_buildMerged (hE : E .malformed) : ∀ (items : List Node) (level : Nat),
    (∀ m ∈ Node.partsOfItems items, m.FlawsIn E) → (buildMerged level items).FlawsIn E
  | [], level, _ => .nil
  | n :: rest, level, h => by
    rw [Node.partsOfItems, List.forall_mem_append] at h
    have hothers := flawsIn_buildMerged hE rest level h.2
    cases n with
    | mapping tag pairs =>
      have hpairs := flawsIn_buildEntries hE pairs level fun m hm =>
        h.1 m (by rw [Node.parts]; exact List.mem_cons_of_mem _ hm)
      refine ⟨?_, nofun⟩
      exact List.forall_mem_append.mpr
        ⟨List.forall_mem_append.mpr ⟨hothers.1, hpairs.1⟩, hpairs.2⟩
    | sequence tag items => exact .nil
    | scalar tag t => exact .nil
    | enclosing isMap distance =>
      cases isMap with
      | true => exact hothers
      | false => exact .nil

end

end Yaml

end PushButton
