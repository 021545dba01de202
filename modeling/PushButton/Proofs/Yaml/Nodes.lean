import PushButton.Proofs.Data.Depth
import PushButton.Proofs.Json.Symbols
import PushButton.Proofs.Yaml.Tokens
import PushButton.Yaml.Document

/-!
# JSON is read as YAML

The tokens of a JSON value are read as a tree of nodes, and the tree is built into the data of the
value. No token of a JSON value gives a node a name or a tag, so a step of reading changes nothing
but the tokens that are left, as long as the value is not nested too deeply for the place. Main
statement: the text of a value made of texts that are carried over holds the data of that value.
-/

namespace PushButton

namespace Yaml

/-- Where nodes may be nested so many times more, a step of reading passes over some tokens and
gives a value; nothing else is changed. -/
def Reads {α : Type} (room : Nat) (m : Read α) (x : α) (ts rest : List Token) : Prop :=
  ∀ r : Reader, r.tokens = ts → r.depth + room ≤ maxDepth →
    m.run r = .ok (x, { r with tokens := rest })

namespace Reads

variable {α β : Type} {room : Nat} {m : Read α} {f : α → Read β} {x : α} {y : β} {t : Token}
  {ts ts' rest : List Token}

/-- A value passes over nothing. -/
theorem pure (x : α) (ts : List Token) : Reads room (Pure.pure x : Read α) x ts ts := by
  rintro r rfl -
  rfl

/-- Two steps in a row. -/
theorem bind (h : Reads room m x ts ts') (hf : Reads room (f x) y ts' rest) :
    Reads room (m >>= f) y ts rest := by
  intro r hr hroom
  rw [StateT.run_bind, h r hr hroom]
  exact hf _ rfl hroom

/-- More room does no harm. -/
theorem mono {room' : Nat} (h : Reads room m x ts rest) (hroom : room ≤ room') :
    Reads room' m x ts rest := fun r hr hroom' => h r hr (by omega)

/-- A step inside of one more sequence or mapping. -/
theorem nested (h : Reads room m x ts rest) : Reads (room + 1) (Read.nested m) x ts rest := by
  intro r hr hroom
  have hdepth : ¬ maxDepth ≤ r.depth := by omega
  have hinside := h { r with depth := r.depth + 1 } hr (by dsimp only; omega)
  unfold Read.nested
  simp only [StateT.run_bind, StateT.run_get, pure_bind, if_neg hdepth, StateT.run_modify]
  rw [hinside]
  rfl

/-- The next token is looked at. -/
theorem peek (t : Token) (ts : List Token) : Reads room Read.peek t (t :: ts) (t :: ts) := by
  intro r hr _
  obtain ⟨_, ending, depth, anchors, handles⟩ := r
  cases hr
  rfl

/-- The next token is passed over. -/
theorem drop (t : Token) (ts : List Token) : Reads room Read.drop () (t :: ts) ts := by
  intro r hr _
  obtain ⟨_, ending, depth, anchors, handles⟩ := r
  cases hr
  rfl

/-- The next token is looked for in a list. -/
theorem sees (us : List Token) (t : Token) (ts : List Token) :
    Reads room (Read.sees us) (us.contains t) (t :: ts) (t :: ts) := (peek t ts).bind (.pure _ _)

/-- A token that stands here is taken. -/
theorem take (t : Token) (ts : List Token) : Reads room (Read.take? t) true (t :: ts) ts := by
  refine (peek t ts).bind ?_
  rw [if_pos rfl]
  exact (drop t ts).bind (.pure true ts)

/-- A token that does not stand here is not taken. -/
theorem take_of_ne {t u : Token} (h : u ≠ t) (ts : List Token) :
    Reads room (Read.take? t) false (u :: ts) (u :: ts) := by
  refine (peek u ts).bind ?_
  rw [if_neg h]
  exact .pure false _

/-- A token that has to stand here is taken. -/
theorem expect (t : Token) (ts : List Token) : Reads room (Read.expect t) () (t :: ts) ts :=
  (take t ts).bind (.pure () ts)

/-- A node without a name is not remembered. -/
theorem name (n : Node) (ts : List Token) : Reads room (Read.name none n) () ts ts := .pure () ts

/-- A sequence or mapping without a name is not remembered. -/
theorem nameEnclosing (isMap : Bool) (ts : List Token) :
    Reads room (Read.nameEnclosing none isMap) () ts ts := by
  rintro r rfl -
  rfl

/-- A step inside of a sequence or mapping without a name. -/
theorem enclosed (h : Reads room m x ts rest) (isMap : Bool) :
    Reads (room + 1) (Read.nested (do Read.nameEnclosing none isMap; m)) x ts rest :=
  ((nameEnclosing isMap ts).bind h).nested

/-- A node without a name is no new one. -/
theorem newName (ts : List Token) : Reads room (Read.newName none) () ts ts := by
  rintro r rfl -
  rfl

/-- In front of any other token there is no name and no tag. -/
theorem properties {t : Token} (ht : ∀ a, t ≠ .anchor a) (ht' : ∀ h s, t ≠ .tag h s)
    (ts : List Token) :
    Reads room Read.properties (none, none) (t :: ts) (t :: ts) := by
  intro r hr _
  obtain ⟨_, ending, depth, anchors, handles⟩ := r
  cases hr
  cases t with
  | anchor a => exact (ht a rfl).elim
  | tag h s => exact (ht' h s rfl).elim
  | _ => rfl

end Reads

/-! ## Nodes of values -/

namespace Node

mutual

/-- The node of a JSON value. -/
def ofJson : Json → Node
  | .text t => .scalar .text t
  | .array items => .sequence .sequence (ofItems items)
  | .object fields => .mapping .mapping (ofFields fields)
  | v => .scalar (.ofPlain (Json.line v)) (Json.line v)

/-- The nodes of the items of an array. -/
def ofItems : List Json → List Node
  | [] => []
  | item :: rest => ofJson item :: ofItems rest

/-- The nodes of the fields of an object. -/
def ofFields : List (Text × Json) → List (Node × Node)
  | [] => []
  | (name, v) :: rest => (.scalar .text name, ofJson v) :: ofFields rest

end

end Node

/-- A token with which the node of a JSON value begins. -/
def Token.beginsNode : Token → Bool
  | .scalar _ _ | .flowSequence | .flowMapping => true
  | _ => false

/-- The tokens of a JSON value begin a node. -/
theorem exists_ofJson (v : Json) :
    ∃ t ts, Token.ofJson v = t :: ts ∧ t.beginsNode = true := by
  unfold Token.ofJson
  split <;> exact ⟨_, _, rfl, rfl⟩

variable {room fuel : Nat} {ts us rest : List Token}

/-- A scalar between quotes is a text. -/
theorem reads_scalar (fuel : Nat) (position : Position) (t : Text) (ts : List Token) :
    Reads room (readNode (fuel + 1) position) (.scalar .text t) (.scalar false t :: ts) ts := by
  rw [readNode]
  refine (Reads.peek _ _).bind ?_
  dsimp only
  refine (Reads.properties (by simp) (by simp) _).bind ?_
  dsimp only
  refine (Reads.peek _ _).bind ?_
  cases position <;>
  · dsimp only
    refine (Reads.drop _ _).bind ((Reads.newName _).bind ?_)
    exact (Reads.name _ _).bind (.pure _ _)

/-- A square bracket with its items is a sequence. -/
theorem reads_sequence (position : Position) {items : List Node}
    (h : Reads room (readFlowItems fuel true) items ts rest) :
    Reads (room + 1) (readNode (fuel + 1) position) (.sequence .sequence items)
      (.flowSequence :: ts) rest := by
  rw [readNode]
  refine (Reads.peek _ _).bind ?_
  dsimp only
  refine (Reads.properties (by simp) (by simp) _).bind ?_
  dsimp only
  refine (Reads.peek _ _).bind ?_
  cases position <;>
  · dsimp only
    refine (Reads.drop _ _).bind ((Reads.newName _).bind ((Reads.enclosed h _).bind ?_))
    exact (Reads.name _ _).bind (.pure _ _)

/-- A brace with its keys and values is a mapping. -/
theorem reads_mapping (position : Position) {pairs : List (Node × Node)}
    (h : Reads room (readFlowPairs fuel true) pairs ts rest) :
    Reads (room + 1) (readNode (fuel + 1) position) (.mapping .mapping pairs) (.flowMapping :: ts)
      rest := by
  rw [readNode]
  refine (Reads.peek _ _).bind ?_
  dsimp only
  refine (Reads.properties (by simp) (by simp) _).bind ?_
  dsimp only
  refine (Reads.peek _ _).bind ?_
  cases position <;>
  · dsimp only
    refine (Reads.drop _ _).bind ((Reads.newName _).bind ((Reads.enclosed h _).bind ?_))
    exact (Reads.name _ _).bind (.pure _ _)

/-- The comma in front of an item or field that is not the first one. -/
def separated (first : Bool) (ts : List Token) : List Token := if first then ts else .comma :: ts

/-- The closing bracket ends the items. -/
theorem readFlowItems_nil (fuel : Nat) (first : Bool) (ts : List Token) :
    Reads room (readFlowItems (fuel + 1) first) [] (.flowSequenceEnd :: ts) ts := by
  rw [readFlowItems]
  exact (Reads.take _ _).bind (.pure _ _)

/-- An item is read, and the others behind it. -/
theorem readFlowItems_cons (first : Bool) {t : Token} (ht : t.beginsNode = true) {n : Node}
    {items : List Node} (hitem : Reads room (readNode fuel .flow) n (t :: ts) us)
    (hitems : Reads room (readFlowItems fuel false) items us rest) :
    Reads room (readFlowItems (fuel + 1) first) (n :: items) (separated first (t :: ts)) rest := by
  have hclosing : t ≠ .flowSequenceEnd := by rintro rfl; cases ht
  have hkey : t ≠ .key := by rintro rfl; cases ht
  rw [readFlowItems]
  cases first with
  | true =>
    refine (Reads.take_of_ne hclosing ts).bind ?_
    refine (Reads.take_of_ne hkey ts).bind ?_
    refine (Reads.take_of_ne hclosing ts).bind ?_
    exact hitem.bind (hitems.bind (.pure _ _))
  | false =>
    refine (Reads.take_of_ne (by simp) _).bind ?_
    refine (Reads.expect _ _).bind ?_
    refine (Reads.take_of_ne hkey ts).bind ?_
    refine (Reads.take_of_ne hclosing ts).bind ?_
    exact hitem.bind (hitems.bind (.pure _ _))

/-- The closing brace ends the keys and values. -/
theorem readFlowPairs_nil (fuel : Nat) (first : Bool) (ts : List Token) :
    Reads room (readFlowPairs (fuel + 1) first) [] (.flowMappingEnd :: ts) ts := by
  rw [readFlowPairs]
  exact (Reads.take _ _).bind (.pure _ _)

/-- A node is read where none of the tokens that may end it stands. -/
theorem reads_readUnless {ends : List Token} {position : Position} {t : Token} {n : Node}
    (hends : ends.contains t = false) (h : Reads room (readNode fuel position) n (t :: ts) rest) :
    Reads room (readUnless (fuel + 1) ends position) n (t :: ts) rest := by
  rw [readUnless]
  refine (Reads.sees ends t ts).bind ?_
  rw [hends]
  exact h

/-- A key and its value are read, and the others behind them. -/
theorem readFlowPairs_cons (first : Bool) (name : Text) {t : Token} (ht : t.beginsNode = true)
    {n : Node} {pairs : List (Node × Node)}
    (hvalue : Reads room (readNode (fuel + 1) .flow) n (t :: ts) us)
    (hpairs : Reads room (readFlowPairs (fuel + 2) false) pairs us rest) :
    Reads room (readFlowPairs (fuel + 3) first) ((.scalar .text name, n) :: pairs)
      (separated first (.key :: .scalar false name :: .value :: t :: ts)) rest := by
  have hends : [Token.comma, .flowMappingEnd].contains t = false := by
    cases t <;> first | rfl | cases ht
  have hpair : Reads room (do
      let k ← readUnless (fuel + 2) [.value, .comma, .flowMappingEnd] .flow
      let v ← if ← Read.take? .value then readUnless (fuel + 2) [.comma, .flowMappingEnd] .flow
        else pure Read.missing
      let rest ← readFlowPairs (fuel + 2) false
      pure ((k, v) :: rest)) ((.scalar .text name, n) :: pairs)
      (.scalar false name :: .value :: t :: ts) rest := by
    refine (reads_readUnless rfl (reads_scalar _ _ _ _)).bind ?_
    refine (Reads.take _ _).bind ?_
    exact (reads_readUnless hends hvalue).bind (hpairs.bind (.pure _ _))
  rw [readFlowPairs]
  cases first with
  | true =>
    refine (Reads.take_of_ne (by simp) _).bind ?_
    exact (Reads.take _ _).bind hpair
  | false =>
    refine (Reads.take_of_ne (by simp) _).bind ?_
    refine (Reads.expect _ _).bind ?_
    exact (Reads.take _ _).bind hpair

/-- The node of a value is read off its tokens, wherever it stands. -/
def IsRead (v : Json) : Prop :=
  ∀ (fuel : Nat) (position : Position) (ts : List Token), (Token.ofJson v).length ≤ fuel →
    Reads (Datum.ofJson v).depth (readNode fuel position) (Node.ofJson v) (Token.ofJson v ++ ts) ts

/-- Items behind commas are read up to the closing bracket. -/
theorem reads_ofItems {items : List Json} (hitems : ∀ v ∈ items, IsRead v) (ts : List Token)
    (fuel : Nat) (hfuel : (Token.ofItems items).length < fuel) :
    Reads (Datum.depthOfItems (Datum.ofItems items)) (readFlowItems fuel false) (Node.ofItems items)
      (Token.ofItems items ++ .flowSequenceEnd :: ts) ts := by
  induction items generalizing fuel with
  | nil =>
    obtain ⟨fuel, rfl⟩ := Nat.exists_eq_add_one_of_ne_zero (Nat.ne_zero_of_lt hfuel)
    exact readFlowItems_nil fuel false ts
  | cons item items ih =>
    obtain ⟨fuel, rfl⟩ := Nat.exists_eq_add_one_of_ne_zero (Nat.ne_zero_of_lt hfuel)
    obtain ⟨t, us, htokens, ht⟩ := exists_ofJson item
    rw [Token.ofItems, List.length_cons, List.length_append] at hfuel
    have hitem := hitems item (by simp) fuel .flow
      (Token.ofItems items ++ .flowSequenceEnd :: ts) (by omega)
    have hrest := ih (fun v hv => hitems v (List.mem_cons_of_mem item hv)) fuel (by
      rw [htokens, List.length_cons] at hfuel
      omega)
    rw [htokens, List.cons_append] at hitem
    rw [Token.ofItems, htokens, List.cons_append, List.cons_append, List.cons_append,
      List.append_assoc]
    exact readFlowItems_cons false ht (hitem.mono (Nat.le_max_left _ _))
      (hrest.mono (Nat.le_max_right _ _))

/-- Fields behind commas are read up to the closing brace. -/
theorem reads_ofFields {fields : List (Text × Json)} (hfields : ∀ f ∈ fields, IsRead f.2)
    (ts : List Token) (fuel : Nat) (hfuel : (Token.ofFields fields).length < fuel) :
    Reads (Datum.depthOfEntries (Datum.ofFields fields)) (readFlowPairs fuel false)
      (Node.ofFields fields) (Token.ofFields fields ++ .flowMappingEnd :: ts) ts := by
  induction fields generalizing fuel with
  | nil =>
    obtain ⟨fuel, rfl⟩ := Nat.exists_eq_add_one_of_ne_zero (Nat.ne_zero_of_lt hfuel)
    exact readFlowPairs_nil fuel false ts
  | cons f fields ih =>
    obtain ⟨name, v⟩ := f
    obtain ⟨t, us, htokens, ht⟩ := exists_ofJson v
    rw [Token.ofFields, List.length_append, List.length_append] at hfuel
    simp only [List.length_cons, List.length_nil] at hfuel
    obtain ⟨fuel, rfl⟩ : ∃ n, fuel = n + 3 := ⟨fuel - 3, by omega⟩
    have hvalue := hfields (name, v) (by simp) (fuel + 1) .flow
      (Token.ofFields fields ++ .flowMappingEnd :: ts) (by dsimp only; omega)
    have hrest := ih (fun f hf => hfields f (List.mem_cons_of_mem _ hf)) (fuel + 2) (by omega)
    dsimp only at hvalue
    rw [htokens, List.cons_append] at hvalue
    have hle : (Datum.ofJson v).depth ≤
        Datum.depthOfEntries ((.text name, Datum.ofJson v) :: Datum.ofFields fields) :=
      Datum.depth_le_depthOfEntries List.mem_cons_self
    have hcons := readFlowPairs_cons false name ht (hvalue.mono hle)
      (hrest.mono (Nat.le_max_right _ _))
    rw [Token.ofFields, Node.ofFields, Datum.ofFields, htokens]
    simpa [separated] using hcons

/-- **A value is read from its tokens.** -/
theorem isRead_of_isCarried {v : Json} (hv : v.IsCarried) : IsRead v := by
  induction hv with
  | @text t _ =>
    intro fuel position ts hfuel
    obtain ⟨fuel, rfl⟩ := Nat.exists_eq_add_one_of_ne_zero (Nat.ne_zero_of_lt hfuel)
    exact reads_scalar fuel position t ts
  | @array items _ ih =>
    intro fuel position ts hfuel
    cases items with
    | nil =>
      obtain ⟨fuel, rfl⟩ : ∃ n, fuel = n + 2 :=
        ⟨fuel - 2, by simp only [Token.ofJson, List.length_cons, List.length_nil] at hfuel; omega⟩
      exact reads_sequence position (readFlowItems_nil fuel true ts)
    | cons item items =>
      obtain ⟨t, us, htokens, ht⟩ := exists_ofJson item
      have hlength : (Token.ofJson item).length = us.length + 1 := by rw [htokens, List.length_cons]
      simp only [Token.ofJson, List.length_cons, List.length_append, List.length_nil] at hfuel
      obtain ⟨fuel, rfl⟩ : ∃ n, fuel = n + 2 := ⟨fuel - 2, by omega⟩
      have hitem := ih item (by simp) fuel .flow (Token.ofItems items ++ .flowSequenceEnd :: ts)
        (by omega)
      have hrest := reads_ofItems (fun v hv => ih v (List.mem_cons_of_mem item hv)) ts fuel
        (by omega)
      rw [htokens, List.cons_append] at hitem
      have hsequence := reads_sequence position (readFlowItems_cons true ht
        (hitem.mono (Nat.le_max_left _ _)) (hrest.mono (Nat.le_max_right _ _)))
      rw [Token.ofJson, Node.ofJson, Node.ofItems, Datum.ofJson, Datum.ofItems, Datum.depth,
        Datum.depthOfItems, htokens]
      simpa [separated] using hsequence
  | @object fields _ _ _ ih =>
    intro fuel position ts hfuel
    cases fields with
    | nil =>
      obtain ⟨fuel, rfl⟩ : ∃ n, fuel = n + 2 :=
        ⟨fuel - 2, by simp only [Token.ofJson, List.length_cons, List.length_nil] at hfuel; omega⟩
      exact reads_mapping position (readFlowPairs_nil fuel true ts)
    | cons f fields =>
      obtain ⟨name, v⟩ := f
      obtain ⟨t, us, htokens, ht⟩ := exists_ofJson v
      simp only [Token.ofJson, List.length_cons, List.length_append, List.length_nil] at hfuel
      obtain ⟨fuel, rfl⟩ : ∃ n, fuel = n + 4 := ⟨fuel - 4, by omega⟩
      have hvalue := ih (name, v) (by simp) (fuel + 1) .flow
        (Token.ofFields fields ++ .flowMappingEnd :: ts) (by dsimp only; omega)
      have hrest := reads_ofFields (fun f hf => ih f (List.mem_cons_of_mem _ hf)) ts (fuel + 2)
        (by omega)
      dsimp only at hvalue
      rw [htokens, List.cons_append] at hvalue
      have hle : (Datum.ofJson v).depth ≤
          Datum.depthOfEntries ((.text name, Datum.ofJson v) :: Datum.ofFields fields) :=
        Datum.depth_le_depthOfEntries List.mem_cons_self
      have hmapping := reads_mapping position (readFlowPairs_cons true name ht
        (hvalue.mono hle) (hrest.mono (Nat.le_max_right _ _)))
      rw [Token.ofJson, Node.ofJson, Node.ofFields, Datum.ofJson, Datum.ofFields, Datum.depth,
        htokens]
      simpa [separated] using hmapping

/-! ## Documents -/

/-- The symbols of a text that is carried over are escaped or may stand in a document. -/
theorem isAllowed_of_isCarried {t : Text} (ht : t.IsCarried) :
    ∀ s ∈ t, 0x20 ≤ s.code → isAllowed s = true := by
  intro s hs
  obtain ⟨_, hs⟩ := ht.of_mem hs
  exact hs.allowed

/-- What is written for the layout of a value may stand in a document. -/
theorem holdsOfLayout_isAllowed : Json.HoldsOfLayout fun s => isAllowed s = true := by
  refine ⟨rfl, fun c hlow hhigh => ?_⟩
  have hcode : 0x20 ≤ (Symbol.char c).code ∧ (Symbol.char c).code ≤ 0x7E :=
    ⟨hlow, Nat.le_of_lt_succ hhigh⟩
  simp [isAllowed, hcode]

/-- The symbols in the text of a value may stand in a document. -/
theorem isAllowed_write {v : Json} (hv : v.IsCarried) {l : Json.Layout} (hl : l.charset = .full) :
    ∀ s ∈ Json.write l v, isAllowed s = true := by
  have hall : v.AllTexts fun t => ∀ s ∈ t, 0x20 ≤ s.code → isAllowed s = true := by
    induction hv with
    | text ht => exact .text (isAllowed_of_isCarried ht)
    | array _ ih => exact .array ih
    | object _ hnames _ ih =>
      exact .object (fun f hf => isAllowed_of_isCarried (hnames f hf).carried) ih
  refine hall.writeAt holdsOfLayout_isAllowed ?_ 1
  rw [hl]
  exact holdsOfLayout_isAllowed.2.quoted_full

/-- Where the text ends, no end of a document is passed over. -/
theorem reads_dropDocumentEnds (fuel : Nat) :
    Reads room (dropDocumentEnds fuel) () [.finish] [.finish] := by
  cases fuel with
  | zero => exact .pure _ _
  | succ fuel =>
    rw [dropDocumentEnds]
    exact (Reads.take_of_ne (by simp) _).bind (.pure _ _)

/-- A node without anything in front of it is the document. -/
theorem reads_readDocument {t : Token} (ht : t.beginsNode = true) {n : Node}
    (h : Reads room (readNode fuel .block) n (t :: ts) [.finish]) :
    Reads room (readDocument fuel) (some n) (t :: ts) [] := by
  rw [readDocument]
  refine (Reads.peek _ _).bind ?_
  have hdocument : Reads room (do
      let node ← readNode fuel .block
      dropDocumentEnds fuel
      if ← Read.take? .finish then pure (some node) else Read.refuse) (some n) (t :: ts) [] :=
    h.bind ((reads_dropDocumentEnds fuel).bind ((Reads.take _ _).bind (.pure _ _)))
  cases t <;> first | cases ht; done | exact hdocument

/-- The text of a value holds its node. -/
theorem ofText_write {v : Json} (hv : v.IsCarried) (hdepth : (Datum.ofJson v).depth ≤ maxDepth)
    {l : Json.Layout} (hl : l.charset = .full) {white : Text} (hwhite : white.IsWhite) :
    Node.ofText (Json.write l v ++ white) = .ok (some (Node.ofJson v)) := by
  have hallowed : (Json.write l v ++ white).all isAllowed = true := by
    rw [List.all_eq_true]
    intro s hs
    obtain hs | hs := List.mem_append.1 hs
    · exact isAllowed_write hv hl s hs
    · obtain rfl | rfl := hwhite s hs <;> decide
  obtain ⟨t, us, htokens, ht⟩ := exists_ofJson v
  have hdocument : Reads (Datum.ofJson v).depth
      (readDocument (3 * (Token.ofJson v ++ [Token.finish]).length + 3))
      (some (Node.ofJson v)) (Token.ofJson v ++ [Token.finish]) [] := by
    have hnode := isRead_of_isCarried hv (3 * (Token.ofJson v ++ [Token.finish]).length + 3) .block
      [.finish] (by rw [List.length_append]; omega)
    rw [htokens] at hnode ⊢
    exact reads_readDocument ht hnode
  rw [Node.ofText, hallowed, tokens_write hv hl hwhite]
  simp only [Bool.not_true, Bool.false_eq_true, if_false]
  rw [hdocument _ rfl (by simpa using hdepth)]
  rfl

/-! ## Data -/

/-- Values without a flaw are all there. -/
theorem all_map_ok {α : Type} (xs : List α) : Built.all (xs.map Except.ok) = .ok xs := by
  induction xs with
  | nil => rfl
  | cons x xs ih =>
    rw [List.map_cons, Built.all, ih]
    rfl

/-- A value is put under a text as it is put under a key of an object. -/
theorem putEntry_ofFields (name : Text) (v : Json) (fields : List (Text × Json)) :
    Datum.putEntry (.text name) (.ofJson v) (Datum.ofFields fields) =
      Datum.ofFields (Json.put name v fields) := by
  induction fields with
  | nil => rfl
  | cons f fields ih =>
    obtain ⟨name', v'⟩ := f
    have hsame : Datum.sameKey (.text name') (.text name) = decide (name' = name) := rfl
    rw [Datum.ofFields, Datum.putEntry, hsame, Json.put, ih]
    by_cases h : name' = name
    · rw [if_pos (decide_eq_true h), if_pos h]
      rfl
    · rw [if_neg (by simpa using h), if_neg h]
      rfl

/-- The entries of a mapping are collected as the fields of an object are. -/
theorem foldl_putEntry (fields : List (Text × Json)) :
    (Datum.ofFields fields).foldl (fun m e => Datum.putEntry e.1 e.2 m) [] =
      Datum.ofFields (Json.collect fields) := by
  have hfold (acc : List (Text × Json)) :
      (Datum.ofFields fields).foldl (fun m e => Datum.putEntry e.1 e.2 m) (Datum.ofFields acc) =
        Datum.ofFields (fields.foldl (fun acc f => Json.put f.1 f.2 acc) acc) := by
    induction fields generalizing acc with
    | nil => rfl
    | cons f fields ih =>
      obtain ⟨name, v⟩ := f
      rw [Datum.ofFields, List.foldl_cons, List.foldl_cons, putEntry_ofFields]
      exact ih _
  exact hfold []

/-- Items whose data are built become a list of them. -/
theorem buildItems_ofItems {items : List Json} {level : Nat}
    (h : ∀ v ∈ items, build level (Node.ofJson v) = .ok (Datum.ofJson v)) :
    buildItems level (Node.ofItems items) = (Datum.ofItems items).map .ok := by
  induction items with
  | nil => rfl
  | cons item items ih =>
    rw [Node.ofItems, buildItems, h item (by simp),
      ih fun v hv => h v (List.mem_cons_of_mem item hv)]
    rfl

/-- Fields whose data are built become entries of their own, with texts as their keys. -/
theorem buildEntries_ofFields {fields : List (Text × Json)} {level : Nat}
    (h : ∀ f ∈ fields, build level (Node.ofJson f.2) = .ok (Datum.ofJson f.2)) :
    buildEntries level (Node.ofFields fields) =
      { own := (Datum.ofFields fields).map .ok } := by
  induction fields with
  | nil => rfl
  | cons f fields ih =>
    obtain ⟨name, v⟩ := f
    have hv : build level (Node.ofJson v) = .ok (Datum.ofJson v) := h (name, v) (by simp)
    have hfields := ih fun f hf => h f (List.mem_cons_of_mem _ hf)
    rw [Node.ofFields, buildEntries.eq_def]
    dsimp only
    rw [hfields, hv, if_neg (by simp [Node.tag])]
    rfl

/-- The data of a value that is carried over. -/
theorem build_ofJson {v : Json} (hv : v.IsCarried) (level : Nat) :
    build level (Node.ofJson v) = .ok (Datum.ofJson v) := by
  induction hv generalizing level with
  | text _ => rfl
  | array _ ih =>
    rw [Node.ofJson, build, buildItems_ofItems fun v hv => ih v hv (level + 1), all_map_ok]
    rfl
  | @object fields hkeys _ _ ih =>
    rw [Node.ofJson, build, buildEntries_ofFields fun f hf => ih f hf (level + 1), Entries.all]
    simp only [Bool.false_eq_true, if_false, List.nil_append, all_map_ok]
    have hentries := foldl_putEntry fields
    rw [Json.collect_of_nodup hkeys] at hentries
    exact congrArg (Except.ok ∘ Datum.map) hentries

/-- **JSON is read as YAML.** -/
theorem read_write {v : Json} (hv : v.IsCarried) (hdepth : (Datum.ofJson v).depth ≤ maxDepth)
    {l : Json.Layout} (hl : l.charset = .full) {white : Text} (hwhite : white.IsWhite) :
    Yaml.read (Json.write l v ++ white) = .ok (Datum.ofJson v) := by
  rw [Yaml.read, ofText_write hv hdepth hl hwhite]
  simp only [bind, Except.bind, build_ofJson hv]
  rfl

end Yaml

end PushButton
