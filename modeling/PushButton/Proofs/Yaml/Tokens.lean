import PushButton.Proofs.Json.Fields
import PushButton.Proofs.Yaml.Quoted

/-!
# JSON values are cut into tokens

Where a JSON value begins, the scanner takes the value off what is left and adds the tokens that
stand for it: brackets become marks, texts become scalars, and a text in front of a colon becomes
the key of a field. Around the value the scanner remembers possible keys, none of which is
required, so it makes no difference which of them have been left behind in the meantime.
-/

namespace PushButton

/-- Spaces and line feeds. -/
def Text.IsWhite (t : Text) : Prop := ∀ s ∈ t, s = .char ' ' ∨ s = .char '\n'

instance (t : Text) : Decidable t.IsWhite := inferInstanceAs (Decidable (∀ s ∈ t, _))

/-- A text that YAML reads as the key of a field: it is carried over, stands on one line and is
short enough. -/
structure Text.IsKey (t : Text) : Prop where
  /-- It is carried over between double quotes. -/
  carried : t.IsCarried
  /-- No separator of lines stands in it. -/
  oneLine : ∀ s ∈ t, s.isSeparator = false
  /-- Its written form has at most 1024 symbols. -/
  short : (Json.quoted .full t).length ≤ 1024

instance (t : Text) : Decidable t.IsKey :=
  decidable_of_iff
    (t.IsCarried ∧ (∀ s ∈ t, s.isSeparator = false) ∧ (Json.quoted .full t).length ≤ 1024)
    ⟨fun ⟨h₁, h₂, h₃⟩ => ⟨h₁, h₂, h₃⟩, fun ⟨h₁, h₂, h₃⟩ => ⟨h₁, h₂, h₃⟩⟩

/-- A JSON value made of texts that YAML reads as they are. -/
inductive Json.IsCarried : Json → Prop
  | text {t : Text} : t.IsCarried → IsCarried (.text t)
  | array {items : List Json} : (∀ v ∈ items, IsCarried v) → IsCarried (.array items)
  | object {fields : List (Text × Json)} : (Json.keys fields).Nodup → (∀ f ∈ fields, f.1.IsKey) →
      (∀ f ∈ fields, IsCarried f.2) → IsCarried (.object fields)

namespace Yaml

namespace Scanner

/-- The scanner stands on a level of brackets behind some tokens, with a text left. No block is
open, and none of the possible keys is required. -/
structure At (s : Scanner) (level : Nat) (ts : List Token) (rest : Text) : Prop where
  /-- The tokens so far. -/
  tokens : s.tokens.reverse = ts
  /-- What is left. -/
  rest : s.cursor.rest = rest
  /-- The level of brackets. -/
  level : s.outerPossible.length = level
  /-- The place is outside of all blocks. -/
  depth : s.depth = 0
  /-- There is no block around it. -/
  outerDepths : s.outerDepths = []
  /-- The possible key on the innermost level is not required. -/
  optional : ∀ k ∈ s.possible, k.required = false
  /-- The possible keys on the levels around it are not required. -/
  outerOptional : ∀ o ∈ s.outerPossible, ∀ k ∈ o, k.required = false

/-- From one state the scanner comes to another one that satisfies a condition, and takes at most
as many steps as symbols. -/
def Reaches (s : Scanner) (P : Scanner → Prop) : Prop :=
  ∃ n s', P s' ∧ n + s'.cursor.rest.length ≤ s.cursor.rest.length ∧
    ∀ fuel, run (n + fuel) s = run fuel s'

namespace Reaches

variable {s : Scanner} {P Q : Scanner → Prop}

/-- The scanner is where it is. -/
theorem refl (h : P s) : s.Reaches P := ⟨0, s, h, by omega, fun fuel => by rw [Nat.zero_add]⟩

/-- From where the scanner comes it goes on. -/
theorem trans (h : s.Reaches P) (hnext : ∀ s', P s' → s'.Reaches Q) : s.Reaches Q := by
  obtain ⟨m, s', hP, hm, hrun⟩ := h
  obtain ⟨n, s'', hQ, hn, hrun'⟩ := hnext s' hP
  exact ⟨m + n, s'', hQ, by omega, fun fuel => by rw [Nat.add_assoc, hrun, hrun']⟩

/-- The condition may be weakened. -/
theorem mono (h : s.Reaches P) (hPQ : ∀ s', P s' → Q s') : s.Reaches Q :=
  h.trans fun s' hs' => refl (hPQ s' hs')

end Reaches

/-! ## In front of a token -/

/-- A symbol that is neither white nor the mark of a comment. -/
def startsToken (x : Symbol) : Bool := !(x = .char ' ' || x = .char '#' || x.isBreak)

/-- Spaces are skipped up to another symbol. -/
theorem skipSpaces_eq {c : Cursor} {n : Nat} {after : Text}
    (hc : c.rest = List.replicate n (.char ' ') ++ after)
    (hafter : after.head? ≠ some (.char ' ')) :
    c.skipSpaces = c.skip n := by
  have htake : c.rest.takeWhile (fun s => decide (s = .char ' ')) =
      List.replicate n (.char ' ') := by
    rw [hc, List.takeWhile_append_of_pos fun s hs => by
      rw [List.eq_of_mem_replicate hs, decide_eq_true_eq]]
    cases after with
    | nil => simp
    | cons x after => simp_all
  rw [Cursor.skipSpaces, Cursor.skipWhile, htake, List.length_replicate]

/-- Where no comment begins, none is skipped. -/
theorem skipComment_eq {c : Cursor} (hc : c.rest.head? ≠ some (.char '#')) : c.skipComment = c := by
  have hsees : c.seesChar '#' = false := by
    rw [Cursor.seesChar, Cursor.sees, Cursor.next]
    cases h : c.rest.head? with
    | none => rfl
    | some x => rw [Option.any_some, decide_eq_false_iff_not]; rintro rfl; exact hc h
  rw [Cursor.skipComment, hsees, if_neg Bool.false_ne_true]

/-- Spaces in front of a token are skipped. -/
theorem skipToToken_spaces {s : Scanner} {n : Nat} {after : Text}
    (hrest : s.cursor.rest = List.replicate n (.char ' ') ++ after)
    (hafter : after.head?.all startsToken = true) (fuel : Nat) :
    skipToToken (fuel + 1) s = { s with cursor := s.cursor.skip n } := by
  have hskip : (s.cursor.skip n).rest = after := by simpa using Cursor.skip_rest hrest
  have hhead : ∀ x, after.head? = some x → startsToken x = true := by
    intro x hx
    rwa [hx] at hafter
  have hspace : after.head? ≠ some (.char ' ') := fun h => absurd (hhead _ h) (by decide)
  have hcomment : after.head? ≠ some (.char '#') := fun h => absurd (hhead _ h) (by decide)
  have hbreak : after.head?.any Symbol.isBreak = false := by
    cases h : after.head? with
    | none => rfl
    | some x =>
      have := hhead x h
      simp only [startsToken, Bool.not_eq_true', Bool.or_eq_false_iff] at this
      rw [Option.any_some, this.2]
  rw [skipToToken, skipSpaces_eq hrest hspace, skipComment_eq (by rw [hskip]; exact hcomment),
    lineBreak?_eq_none (by rw [hskip]; exact hbreak)]

/-- White space in front of a token is skipped. A key may still begin where one could. -/
theorem skipToToken_white {s : Scanner} {white after : Text}
    (hrest : s.cursor.rest = white ++ after) (hwhite : white.IsWhite)
    (hafter : after.head?.all startsToken = true) (fuel : Nat) (hfuel : white.length < fuel) :
    ∃ keyAllowed, (s.keyAllowed = true → keyAllowed = true) ∧
      skipToToken fuel s =
        { s with cursor := s.cursor.skip white.length, keyAllowed := keyAllowed } := by
  induction fuel generalizing s white with
  | zero => omega
  | succ fuel ih =>
    obtain ⟨n, u, rfl, hu⟩ := exists_spaces white
    rw [List.append_assoc] at hrest
    have hskip : (s.cursor.skip n).rest = u ++ after := by
      simpa using Cursor.skip_rest hrest
    cases u with
    | nil =>
      refine ⟨s.keyAllowed, id, ?_⟩
      rw [skipToToken_spaces hrest hafter, List.append_nil, List.length_replicate]
    | cons x u =>
      have hx : x = .char '\n' :=
        (hwhite x (by simp)).resolve_left fun h => hu (congrArg some h)
      subst hx
      have hbreak : (s.cursor.skip n).lineBreak? =
          some (.char '\n', (s.cursor.skip n).step) := by
        rw [Cursor.lineBreak?, hskip]
        rfl
      have hlater := ih (s := { s with
          cursor := (s.cursor.skip n).step, keyAllowed := s.keyAllowed || !s.inFlow })
        (Cursor.step_rest hskip)
        (fun s' hs' => hwhite s' (by simp [hs'])) (by simp at hfuel; omega)
      obtain ⟨keyAllowed, hkey, hlater⟩ := hlater
      refine ⟨keyAllowed, fun h => hkey (by simp [h]), ?_⟩
      rw [skipToToken, skipSpaces_eq hrest (by simp),
        skipComment_eq (by rw [hskip]; simp), hbreak]
      dsimp only
      rw [hlater, List.length_append, List.length_replicate, List.length_cons,
        Nat.add_comm u.length, Cursor.skip_add, Cursor.skip_add]
      rfl

/-- A possible key that is not required is dropped when it is stale. -/
theorem dropStaleKey_of_optional {c : Cursor} {o : Option PossibleKey}
    (ho : ∀ k ∈ o, k.required = false) :
    dropStaleKey c o = .ok (o.filter fun k => !k.isStale c) := by
  cases o with
  | none => rfl
  | some k =>
    rw [dropStaleKey, ho k rfl]
    cases hstale : k.isStale c <;> simp [Option.filter, hstale]

/-- Possible keys that are not required are dropped when they are stale. -/
theorem mapM_dropStaleKey {c : Cursor} {os : List (Option PossibleKey)}
    (hos : ∀ o ∈ os, ∀ k ∈ o, k.required = false) :
    os.mapM (dropStaleKey c) = .ok (os.map (Option.filter fun k => !k.isStale c)) := by
  induction os with
  | nil => rfl
  | cons o os ih =>
    rw [List.mapM_cons, dropStaleKey_of_optional (hos o (by simp)),
      ih fun o' ho' => hos o' (List.mem_cons_of_mem o ho')]
    rfl

/-- Outside of all blocks there is no block to close. -/
theorem closeBlocks_of_outerDepths {s : Scanner} (h : s.outerDepths = []) (depth : Nat) :
    s.closeBlocks depth = s := by
  rw [closeBlocks, h, unwind]
  split <;> rfl

/-- In front of a token the scanner stands behind the white space, and the possible keys that are
stale are dropped; where there is no white space, the place is the same. -/
theorem At.exists_ready {s : Scanner} {level : Nat} {ts : List Token} (white after : Text)
    (h : s.At level ts (white ++ after)) (hwhite : white.IsWhite)
    (hafter : after.head?.all startsToken = true) :
    ∃ s₁ : Scanner, s₁.At level ts after ∧ (s.keyAllowed = true → s₁.keyAllowed = true) ∧
      s₁.cursor = s.cursor.skip white.length ∧
      s₁.possible = s.possible.filter (fun k => !k.isStale s₁.cursor) ∧
      (skipToToken (s.cursor.rest.length + 1) s).dropStale = .ok s₁ := by
  obtain ⟨keyAllowed, hkey, hskip⟩ := skipToToken_white h.rest hwhite hafter
    (s.cursor.rest.length + 1) (by rw [h.rest, List.length_append]; omega)
  let c := s.cursor.skip white.length
  refine ⟨{ s with
    cursor := c
    keyAllowed := keyAllowed
    possible := s.possible.filter fun k => !k.isStale c
    outerPossible := s.outerPossible.map (Option.filter fun k => !k.isStale c) }, ?_, hkey, rfl,
    rfl, ?_⟩
  · refine ⟨h.tokens, Cursor.skip_rest h.rest, ?_, h.depth, h.outerDepths, ?_, ?_⟩
    · rw [List.length_map, h.level]
    · intro k hk
      exact h.optional k (Option.mem_filter_iff.1 hk).1
    · intro o ho k hk
      obtain ⟨o', ho', rfl⟩ := List.mem_map.1 ho
      exact h.outerOptional o' ho' k (Option.mem_filter_iff.1 hk).1
  · rw [hskip, dropStale]
    dsimp only
    rw [dropStaleKey_of_optional h.optional, mapM_dropStaleKey h.outerOptional]
    rfl

/-- The scanner takes the next token. -/
theorem At.reaches {s : Scanner} {level : Nat} {ts : List Token} (white : Text) {rest : Text}
    {x : Symbol} {P : Scanner → Prop} (h : s.At level ts (white ++ x :: rest))
    (hwhite : white.IsWhite) (hx : startsToken x = true)
    (hfetch : ∀ s₁ : Scanner, s₁.At level ts (x :: rest) →
      (s.keyAllowed = true → s₁.keyAllowed = true) → s₁.cursor = s.cursor.skip white.length →
      s₁.possible = s.possible.filter (fun k => !k.isStale s₁.cursor) →
      ∃ s₂, s₁.fetch x = .ok s₂ ∧ s₂.cursor.rest.length ≤ rest.length ∧ P s₂) :
    s.Reaches P := by
  obtain ⟨s₁, h₁, hkey, hcursor, hpossible, hready⟩ := h.exists_ready white (x :: rest) hwhite hx
  obtain ⟨s₂, hs₂, hlength, hP⟩ := hfetch s₁ h₁ hkey hcursor hpossible
  refine ⟨1, s₂, hP, ?_, fun fuel => ?_⟩
  · rw [h.rest, List.length_append, List.length_cons]
    omega
  · have hnext : s₁.cursor.next = some x := by rw [Cursor.next, h₁.rest]; rfl
    rw [Nat.add_comm, run]
    dsimp only
    rw [hready]
    simp only [bind, Except.bind, closeBlocks_of_outerDepths h₁.outerDepths, hnext, hs₂]
    rfl

/-! ## Tokens -/

/-- The token of an opening bracket. -/
def opening? : Symbol → Option Token
  | .char '[' => some .flowSequence
  | .char '\x7b' => some .flowMapping
  | _ => none

/-- The token of a closing bracket. -/
def closing? : Symbol → Option Token
  | .char ']' => some .flowSequenceEnd
  | .char '\x7d' => some .flowMappingEnd
  | _ => none

/-- Where another symbol stands, no mark of a document is seen. -/
theorem seesMark_eq_false {c : Cursor} {x : Symbol} {rest : Text} (hrest : c.rest = x :: rest)
    (hdash : x ≠ .char '-') (hdot : x ≠ .char '.') :
    c.seesMark "---" = false ∧ c.seesMark "..." = false := by
  have hmark (m : Symbol) (hm : x ≠ m) : c.seesMark [m, m, m] = false := by
    have hne : (m == x) = false := by simpa using Ne.symm hm
    rw [Cursor.seesMark, hrest, List.isPrefixOf_cons_cons, hne, Bool.false_and, Bool.false_and]
  exact ⟨hmark _ hdash, hmark _ hdot⟩

/-- An opening bracket opens a level. -/
theorem fetch_opening {s : Scanner} {x : Symbol} {t : Token} {rest : Text}
    (hrest : s.cursor.rest = x :: rest) (ht : opening? x = some t) : s.fetch x = s.openFlow t := by
  obtain ⟨hdash, hdot⟩ :=
    seesMark_eq_false hrest (by rintro rfl; cases ht) (by rintro rfl; cases ht)
  unfold opening? at ht
  split at ht <;> cases ht <;> simp [fetch, hdash, hdot]

/-- A closing bracket closes a level. -/
theorem fetch_closing {s : Scanner} {x : Symbol} {t : Token} {rest : Text}
    (hrest : s.cursor.rest = x :: rest) (ht : closing? x = some t) : s.fetch x = s.closeFlow t := by
  obtain ⟨hdash, hdot⟩ :=
    seesMark_eq_false hrest (by rintro rfl; cases ht) (by rintro rfl; cases ht)
  unfold closing? at ht
  split at ht <;> cases ht <;> simp [fetch, hdash, hdot]

/-- A comma separates. -/
theorem fetch_comma {s : Scanner} {rest : Text} (hrest : s.cursor.rest = .char ',' :: rest) :
    s.fetch (.char ',') = s.comma := by
  obtain ⟨hdash, hdot⟩ := seesMark_eq_false hrest (by decide) (by decide)
  simp [fetch, hdash, hdot]

/-- A colon inside of brackets is the mark of a value. -/
theorem fetch_colon {s : Scanner} {rest : Text} (hrest : s.cursor.rest = .char ':' :: rest)
    (hflow : s.inFlow = true) : s.fetch (.char ':') = s.value := by
  obtain ⟨hdash, hdot⟩ := seesMark_eq_false hrest (by decide) (by decide)
  simp [fetch, hdash, hdot, hflow]

/-- A double quote begins a scalar. -/
theorem fetch_quote {s : Scanner} {rest : Text} (hrest : s.cursor.rest = .char '"' :: rest) :
    s.fetch (.char '"') =
      s.node fun c => (quotedScalar true c).map fun (t, c) => (.scalar false t, c) := by
  obtain ⟨hdash, hdot⟩ := seesMark_eq_false hrest (by decide) (by decide)
  simp [fetch, hdash, hdot]

/-- A possible key that is not required can be given up. -/
theorem giveUpKey_of_optional {s : Scanner} (h : ∀ k ∈ s.possible, k.required = false) :
    s.giveUpKey = .ok { s with possible := none } := by
  have hany : s.possible.any (·.required) = false := by
    cases hk : s.possible with
    | none => rfl
    | some k => exact h k hk
  rw [giveUpKey, hany, if_neg Bool.false_ne_true]

/-- Another possible key that is not required makes no difference. -/
theorem At.possible {s : Scanner} {level : Nat} {ts : List Token} {rest : Text}
    (h : s.At level ts rest) {o : Option PossibleKey} (ho : ∀ k ∈ o, k.required = false) :
    At { s with possible := o } level ts rest :=
  ⟨h.tokens, h.rest, h.level, h.depth, h.outerDepths, ho, h.outerOptional⟩

/-- What the scanner remembers is no required key. -/
theorem At.rememberKey {s : Scanner} {level : Nat} {ts : List Token} {rest : Text}
    (h : s.At level ts rest) :
    ∃ s₁ : Scanner, s.rememberKey = .ok s₁ ∧ s₁.At level ts rest ∧ s₁.cursor = s.cursor ∧
      (s.keyAllowed = true → s₁.possible = some ⟨ts.length, false, s.cursor⟩) := by
  cases hkey : s.keyAllowed with
  | false =>
    refine ⟨s, ?_, h, rfl, by simp⟩
    rw [Scanner.rememberKey, hkey]
    rfl
  | true =>
    have hrequired : (!s.inFlow && decide (s.depth = s.cursor.column + 1)) = false := by
      rw [h.depth]
      simp
    have hlength : s.tokens.length = ts.length := by rw [← h.tokens, List.length_reverse]
    have hremember : s.rememberKey = .ok { s with
        possible := some (.mk s.tokens.length (!s.inFlow && s.depth = s.cursor.column + 1) s.cursor)
        } := by
      rw [Scanner.rememberKey, giveUpKey_of_optional h.optional]
      simp only [hkey]
      rfl
    rw [hrequired, hlength] at hremember
    exact ⟨_, hremember, h.possible (by rintro k ⟨rfl⟩; rfl), rfl, fun _ => rfl⟩

/-- Behind a token the rest is left. -/
theorem At.emit {s : Scanner} {level : Nat} {ts : List Token} {rest rest' : Text}
    (h : s.At level ts rest) (t : Token) {c : Cursor} (hc : c.rest = rest') (keyAllowed : Bool) :
    At { s.emit t with cursor := c, keyAllowed := keyAllowed } level (ts ++ [t]) rest' where
  tokens := by simp [Scanner.emit, h.tokens]
  rest := hc
  level := h.level
  depth := h.depth
  outerDepths := h.outerDepths
  optional := h.optional
  outerOptional := h.outerOptional

variable {s : Scanner} {level : Nat} {ts : List Token} {white rest : Text}

/-- A bracket is opened, and a key may begin behind it. -/
theorem At.opening {x : Symbol} {t : Token} (ht : opening? x = some t)
    (h : s.At level ts (white ++ x :: rest)) (hwhite : white.IsWhite) :
    s.Reaches fun s' => s'.At (level + 1) (ts ++ [t]) rest ∧ s'.keyAllowed = true := by
  refine h.reaches white hwhite ?_ fun s₁ h₁ _ _ _ => ?_
  · unfold opening? at ht
    split at ht <;> first | cases ht; done | rfl
  · obtain ⟨s₂, hremember, h₂, hcursor, -⟩ := h₁.rememberKey
    have hrest : s₂.cursor.step.rest = rest := Cursor.step_rest h₂.rest
    refine ⟨{ s₂.mark t with
      keyAllowed := true, possible := none, outerPossible := s₂.possible :: s₂.outerPossible },
      ?_, hrest ▸ Nat.le_refl _, ?_, rfl⟩
    · rw [fetch_opening h₁.rest ht, openFlow, hremember]
      rfl
    · have h₃ := h₂.emit t hrest true
      refine ⟨h₃.tokens, h₃.rest, ?_, h₃.depth, h₃.outerDepths, by simp, ?_⟩
      · rw [List.length_cons, h₂.level]
      · exact List.forall_mem_cons.2 ⟨h₂.optional, h₂.outerOptional⟩

/-- A bracket is closed. -/
theorem At.closing {x : Symbol} {t : Token} (ht : closing? x = some t) (white : Text)
    (h : s.At (level + 1) ts (white ++ x :: rest)) (hwhite : white.IsWhite) :
    s.Reaches fun s' => s'.At level (ts ++ [t]) rest := by
  refine h.reaches white hwhite ?_ fun s₁ h₁ _ _ _ => ?_
  · unfold closing? at ht
    split at ht <;> first | cases ht; done | rfl
  · have hrest : s₁.cursor.step.rest = rest := Cursor.step_rest h₁.rest
    obtain ⟨o, os, hos⟩ := List.exists_cons_of_length_eq_add_one h₁.level
    have hoptional := hos ▸ h₁.outerOptional
    refine ⟨{ s₁.mark t with keyAllowed := false, possible := o, outerPossible := os }, ?_,
      hrest ▸ Nat.le_refl _, ?_⟩
    · rw [fetch_closing h₁.rest ht, closeFlow, giveUpKey_of_optional h₁.optional]
      simp only [bind, Except.bind, hos]
      rfl
    · have h₂ := h₁.emit t hrest false
      refine ⟨h₂.tokens, h₂.rest, ?_, h₂.depth, h₂.outerDepths, ?_, ?_⟩
      · have := h₁.level
        rw [hos, List.length_cons] at this
        exact Nat.succ.inj this
      · exact (List.forall_mem_cons.1 hoptional).1
      · exact (List.forall_mem_cons.1 hoptional).2

/-- A comma separates, and a key may begin behind it. -/
theorem At.comma (white : Text) (h : s.At level ts (white ++ .char ',' :: rest))
    (hwhite : white.IsWhite) :
    s.Reaches fun s' => s'.At level (ts ++ [.comma]) rest ∧ s'.keyAllowed = true := by
  refine h.reaches white hwhite rfl fun s₁ h₁ _ _ _ => ?_
  have hrest : s₁.cursor.step.rest = rest := Cursor.step_rest h₁.rest
  refine ⟨{ ({ s₁ with possible := none } : Scanner).mark .comma with keyAllowed := true }, ?_,
    hrest ▸ Nat.le_refl _, (h₁.possible (by simp)).emit .comma hrest true, rfl⟩
  rw [fetch_comma h₁.rest, Scanner.comma, giveUpKey_of_optional h₁.optional]
  rfl

/-- A text between quotes is a scalar, which is remembered where a key may begin. -/
theorem At.scalar {t : Text} (ht : t.IsCarried)
    (h : s.At level ts (white ++ (Json.quoted .full t ++ rest))) (hwhite : white.IsWhite) :
    s.Reaches fun s' => s'.At level (ts ++ [.scalar false t]) rest ∧
      (s.keyAllowed = true → ∃ c : Cursor, c.rest = Json.quoted .full t ++ rest ∧
        s'.cursor = c.skip (Json.quoted .full t).length ∧
        s'.possible = some ⟨ts.length, false, c⟩) := by
  have hquote : Json.quoted .full t ++ rest = .char '"' :: inQuotes t rest := by
    rw [Json.quoted, inQuotes]
    simp
  rw [hquote] at h
  refine h.reaches white hwhite rfl fun s₁ h₁ hkey _ _ => ?_
  obtain ⟨s₂, hremember, h₂, hcursor, hpossible⟩ := h₁.rememberKey
  have hc : s₂.cursor.rest = Json.quoted .full t ++ rest := h₂.rest.trans hquote.symm
  have hrest := Cursor.skip_rest hc
  refine ⟨{ s₂.emit (.scalar false t) with
    cursor := s₂.cursor.skip (Json.quoted .full t).length, keyAllowed := false }, ?_, ?_,
    h₂.emit _ hrest false, fun hallowed => ?_⟩
  · rw [fetch_quote h₁.rest, node, hremember]
    simp only [bind, Except.bind, quotedScalar_quoted hc ht]
    rfl
  · rw [hrest, inQuotes, List.length_append, List.length_cons]
    omega
  · exact ⟨s₂.cursor, hc, rfl, hcursor ▸ hpossible (hkey hallowed)⟩

/-- No line ends in the escape of a control character. -/
theorem isBreak_escaped_ofCode :
    ∀ n < 0x20, ∀ x ∈ Json.escaped .full (.ofCode n), x.isBreak = false := by
  decide

/-- No line ends in the written form of a key. -/
theorem isBreak_quoted {t : Text} (ht : t.IsKey) :
    ∀ x ∈ Json.quoted .full t, x.isBreak = false := by
  intro x hx
  rw [Json.quoted, List.cons_append, List.mem_cons, List.mem_append, List.mem_flatMap,
    List.mem_singleton] at hx
  obtain rfl | ⟨s, hs, hx⟩ | rfl := hx
  · rfl
  · cases hraw : isRaw s with
    | true =>
      rw [escaped_of_isRaw hraw, List.mem_singleton] at hx
      subst hx
      obtain ⟨_, hx⟩ := ht.carried.of_mem hs
      exact (isBreak_of_isRaw hraw hx.noNextLine).trans (ht.oneLine x hs)
    | false =>
      by_cases hcode : s.code < 0x20
      · exact isBreak_escaped_ofCode s.code hcode x (s.ofCode_code.symm ▸ hx)
      · have hquote : s = .char '"' ∨ s = .char '\\' := by
          have hcode' : 0x20 ≤ s.code := by omega
          by_contra hne
          rw [not_or] at hne
          simp [isRaw, hcode', hne.1, hne.2] at hraw
        obtain rfl | rfl := hquote <;> revert x <;> decide
  · rfl

/-- Inside of brackets the possible key becomes a key, and no block begins with it. -/
theorem value_of_possible {k : PossibleKey} (hflow : s.inFlow = true) (hk : s.possible = some k) :
    s.value = .ok (mark (insert { s with possible := none, keyAllowed := false } k.number .key)
      .value) := by
  have hnone (s' s'' : Scanner) (b : Bool) (h : s'.inFlow = true) :
      (if !s'.inFlow && b then s'' else s') = s' := by
    rw [h]
    rfl
  rw [value, hk]
  dsimp only
  rw [hnone]
  · rfl
  · exact hflow

/-- A key with its colon: the marks of a key and of a value stand around the text. -/
theorem At.key {t : Text} (ht : t.IsKey) (hkey : s.keyAllowed = true)
    (h : s.At (level + 1) ts (white ++ (Json.quoted .full t ++ .char ':' :: rest)))
    (hwhite : white.IsWhite) :
    s.Reaches fun s' => s'.At (level + 1) (ts ++ [.key, .scalar false t, .value]) rest := by
  refine (h.scalar ht.carried hwhite).trans fun s₁ ⟨h₁, hpossible⟩ => ?_
  obtain ⟨c, hc, hcursor, hpossible⟩ := hpossible hkey
  refine h₁.reaches [] (by decide) rfl fun s₂ h₂ _ hcursor₂ hpossible₂ => ?_
  -- The possible key is on the line of the colon and near enough.
  have hplace : s₂.cursor = c.skip (Json.quoted .full t).length := hcursor₂.trans hcursor
  have hline : s₂.cursor.line = c.line := by
    rw [hplace, Cursor.skip_line hc (isBreak_quoted ht)]
  have hindex : s₂.cursor.index = c.index + (Json.quoted .full t).length := by
    rw [hplace, Cursor.skip_index hc]
  have hfresh : PossibleKey.isStale ⟨ts.length, false, c⟩ s₂.cursor = false := by
    have := ht.short
    simp [PossibleKey.isStale, hline, hindex]
    omega
  have hkept : s₂.possible = some ⟨ts.length, false, c⟩ := by
    rw [hpossible₂, hpossible]
    simp [Option.filter, hfresh]
  have hflow : s₂.inFlow = true := by
    rw [inFlow, List.isEmpty_eq_false_iff.2 (List.ne_nil_of_length_eq_add_one h₂.level)]
    rfl
  have hrest : s₂.cursor.step.rest = rest := Cursor.step_rest h₂.rest
  have htokens : s₂.tokens = .scalar false t :: ts.reverse := by
    rw [← List.reverse_reverse s₂.tokens, h₂.tokens, List.reverse_append]
    rfl
  have hinsert (o : Option PossibleKey) (b : Bool) :
      ({ s₂ with possible := o, keyAllowed := b } : Scanner).insert ts.length .key =
        { s₂ with
          tokens := .scalar false t :: .key :: ts.reverse, possible := o, keyAllowed := b } := by
    rw [insert]
    simp [htokens]
  refine ⟨_, (fetch_colon h₂.rest hflow).trans (value_of_possible hflow hkept),
    hrest ▸ Nat.le_refl _, ?_⟩
  rw [hinsert]
  refine ⟨?_, hrest, h₂.level, h₂.depth, h₂.outerDepths, by rintro k ⟨⟩, h₂.outerOptional⟩
  simp [mark, Scanner.emit]

end Scanner

/-! ## Values -/

namespace Token

mutual

/-- The tokens of a JSON value. -/
def ofJson : Json → List Token
  | .text t => [.scalar false t]
  | .array [] => [.flowSequence, .flowSequenceEnd]
  | .array (item :: rest) => .flowSequence :: (ofJson item ++ ofItems rest ++ [.flowSequenceEnd])
  | .object [] => [.flowMapping, .flowMappingEnd]
  | .object ((name, v) :: rest) =>
    [.flowMapping, .key, .scalar false name, .value] ++ ofJson v ++ ofFields rest ++
      [.flowMappingEnd]
  | v => [.scalar true (Json.line v)]

/-- The tokens of items after the first one. -/
def ofItems : List Json → List Token
  | [] => []
  | item :: rest => .comma :: (ofJson item ++ ofItems rest)

/-- The tokens of fields after the first one. -/
def ofFields : List (Text × Json) → List Token
  | [] => []
  | (name, v) :: rest =>
    [.comma, .key, .scalar false name, .value] ++ ofJson v ++ ofFields rest

end

end Token

namespace Scanner

open Json (Layout writeAt writeItems writeFields quoted)

variable {l : Layout} {s : Scanner} {level : Nat} {ts : List Token} {rest : Text}

/-- The scanner takes a value off what is left, at every depth and behind white space. -/
def Scans (l : Layout) (v : Json) : Prop :=
  ∀ (depth : Nat) (white : Text) {s : Scanner} {level : Nat} {ts : List Token} {rest : Text},
    s.At level ts (white ++ (writeAt l depth v ++ rest)) → white.IsWhite →
      s.Reaches fun s' => s'.At level (ts ++ Token.ofJson v) rest

/-- A line is begun with white space. -/
theorem isWhite_break (l : Layout) (depth : Nat) : (l.break depth).IsWhite := by
  intro x hx
  rw [Layout.break] at hx
  split at hx
  · cases hx
  · obtain rfl | hx := List.mem_cons.1 hx
    · exact .inr rfl
    · exact .inl (List.eq_of_mem_replicate hx)

/-- Items are separated by a comma and white space. -/
theorem exists_between (l : Layout) (depth : Nat) :
    ∃ gap : Text, l.between depth = .char ',' :: gap ∧ gap.IsWhite := by
  rw [Layout.between]
  split
  · exact ⟨" ", rfl, by decide⟩
  · exact ⟨l.break depth, rfl, isWhite_break l depth⟩

/-- Nothing is white space. -/
theorem isWhite_nil : Text.IsWhite [] := by
  rintro x ⟨⟩

/-- The scanner takes items after the first one, each behind a comma. -/
theorem At.items {items : List Json} (hitems : ∀ v ∈ items, Scans l v) (depth : Nat)
    (h : s.At level ts (writeItems l depth items ++ rest)) :
    s.Reaches fun s' => s'.At level (ts ++ Token.ofItems items) rest := by
  induction items generalizing s ts with
  | nil =>
    rw [Token.ofItems, List.append_nil]
    exact .refl h
  | cons item items ih =>
    obtain ⟨gap, hgap, hwhite⟩ := exists_between l depth
    rw [writeItems, hgap] at h
    simp only [List.append_assoc, List.cons_append] at h
    refine (At.comma [] h isWhite_nil).trans fun s₁ ⟨h₁, _⟩ => ?_
    refine (hitems item (by simp) (depth + 1) gap h₁ hwhite).trans fun s₂ h₂ => ?_
    refine (ih (fun v hv => hitems v (List.mem_cons_of_mem item hv)) h₂).mono fun s₃ h₃ => ?_
    rw [Token.ofItems]
    simpa using h₃

/-- The scanner takes a field: its name, a colon and its value. -/
theorem At.field (hl : l.charset = .full) {name : Text} {value : Json} (hname : name.IsKey)
    (hvalue : Scans l value) (depth : Nat) {white : Text} (hwhite : white.IsWhite)
    (hkey : s.keyAllowed = true)
    (h : s.At (level + 1) ts
      (white ++ (quoted l.charset name ++ (": " ++ (writeAt l depth value ++ rest))))) :
    s.Reaches fun s' => s'.At (level + 1)
      (ts ++ ([.key, .scalar false name, .value] ++ Token.ofJson value)) rest := by
  rw [hl] at h
  refine (At.key hname hkey h hwhite).trans fun s₁ h₁ => ?_
  refine (hvalue depth " " h₁ (by decide)).mono fun s₂ h₂ => ?_
  rw [← List.append_assoc]
  exact h₂

/-- The scanner takes fields after the first one, each behind a comma. -/
theorem At.fields (hl : l.charset = .full) {fields : List (Text × Json)}
    (hnames : ∀ f ∈ fields, f.1.IsKey) (hvalues : ∀ f ∈ fields, Scans l f.2) (depth : Nat)
    (h : s.At (level + 1) ts (writeFields l depth fields ++ rest)) :
    s.Reaches fun s' => s'.At (level + 1) (ts ++ Token.ofFields fields) rest := by
  induction fields generalizing s ts with
  | nil =>
    rw [Token.ofFields, List.append_nil]
    exact .refl h
  | cons f fields ih =>
    obtain ⟨name, value⟩ := f
    obtain ⟨gap, hgap, hwhite⟩ := exists_between l depth
    rw [writeFields, hgap] at h
    simp only [List.append_assoc, List.cons_append] at h
    refine (At.comma [] h isWhite_nil).trans fun s₁ ⟨h₁, hkey⟩ => ?_
    refine (At.field hl (hnames (name, value) (by simp)) (hvalues (name, value) (by simp))
      (depth + 1) hwhite hkey h₁).trans fun s₂ h₂ => ?_
    refine (ih (fun f hf => hnames f (List.mem_cons_of_mem _ hf))
      (fun f hf => hvalues f (List.mem_cons_of_mem _ hf)) h₂).mono fun s₃ h₃ => ?_
    rw [Token.ofFields]
    simpa using h₃

/-- **A value is cut into its tokens.** The scanner takes every value made of texts that are carried
over off what is left. -/
theorem scans_of_isCarried (hl : l.charset = .full) {v : Json} (hv : v.IsCarried) :
    Scans l v := by
  induction hv with
  | text ht =>
    intro depth white s level ts rest h hwhite
    rw [writeAt, hl] at h
    exact (h.scalar ht hwhite).mono fun s₁ ⟨h₁, _⟩ => h₁
  | @array items _ ih =>
    intro depth white s level ts rest h hwhite
    cases items with
    | nil =>
      refine (At.opening (x := .char '[') rfl h hwhite).trans fun s₁ ⟨h₁, _⟩ => ?_
      refine (At.closing (x := .char ']') rfl [] h₁ isWhite_nil).mono fun s₂ h₂ => ?_
      rw [Token.ofJson]
      simpa using h₂
    | cons item items =>
      rw [writeAt.eq_8] at h
      simp only [List.append_assoc] at h
      refine (At.opening (x := .char '[') rfl h hwhite).trans fun s₁ ⟨h₁, _⟩ => ?_
      refine (ih item (by simp) (depth + 1) _ h₁ (isWhite_break l depth)).trans fun s₂ h₂ => ?_
      refine (At.items (fun v hv => ih v (List.mem_cons_of_mem item hv)) depth h₂).trans
        fun s₃ h₃ => ?_
      refine (At.closing (x := .char ']') rfl _ h₃ (isWhite_break l (depth - 1))).mono
        fun s₄ h₄ => ?_
      rw [Token.ofJson]
      simpa using h₄
  | @object fields _ hnames _ ih =>
    intro depth white s level ts rest h hwhite
    cases fields with
    | nil =>
      refine (At.opening (x := .char '\x7b') rfl h hwhite).trans fun s₁ ⟨h₁, _⟩ => ?_
      refine (At.closing (x := .char '\x7d') rfl [] h₁ isWhite_nil).mono fun s₂ h₂ => ?_
      rw [Token.ofJson]
      simpa using h₂
    | cons f fields =>
      obtain ⟨name, value⟩ := f
      rw [writeAt] at h
      simp only [List.append_assoc] at h
      refine (At.opening (x := .char '\x7b') rfl h hwhite).trans fun s₁ ⟨h₁, hkey⟩ => ?_
      refine (At.field hl (hnames (name, value) (by simp)) (ih (name, value) (by simp)) (depth + 1)
        (isWhite_break l depth) hkey h₁).trans fun s₂ h₂ => ?_
      refine (At.fields hl (fun f hf => hnames f (List.mem_cons_of_mem _ hf))
        (fun f hf => ih f (List.mem_cons_of_mem _ hf)) depth h₂).trans fun s₃ h₃ => ?_
      refine (At.closing (x := .char '\x7d') rfl _ h₃ (isWhite_break l (depth - 1))).mono
        fun s₄ h₄ => ?_
      rw [Token.ofJson]
      simpa using h₄

/-- Behind everything the scanner gives its tokens. -/
theorem At.run_end (h : s.At level ts rest) (hrest : rest.IsWhite) (fuel : Nat) :
    run (fuel + 1) s = (ts ++ [.finish], none) := by
  obtain ⟨s₁, h₁, -, -, -, hready⟩ := At.exists_ready rest []
    (by rwa [List.append_nil]) hrest rfl
  have hnext : s₁.cursor.next = none := by rw [Cursor.next, h₁.rest]; rfl
  rw [run]
  dsimp only
  rw [hready]
  simp only [bind, Except.bind, closeBlocks_of_outerDepths h₁.outerDepths, hnext,
    giveUpKey_of_optional h₁.optional, pure, Except.pure]
  simp [Scanner.emit, h₁.tokens]

end Scanner

/-- The text of a value begins with no byte order mark. -/
theorem seesChar_mark_write {v : Json} (hv : v.IsCarried) (l : Json.Layout) (rest : Text) :
    Cursor.seesChar { rest := Json.write l v ++ rest } '\ufeff' = false := by
  rw [Json.write]
  cases hv with
  | text _ => rfl
  | @array items _ => cases items <;> rfl
  | @object fields _ _ _ => cases fields <;> rfl

/-- The tokens of the text of a value, which may end with white space. -/
theorem tokens_write {v : Json} (hv : v.IsCarried) {l : Json.Layout} (hl : l.charset = .full)
    {white : Text} (hwhite : white.IsWhite) :
    tokens (Json.write l v ++ white) = (Token.ofJson v ++ [.finish], none) := by
  let s : Scanner := { cursor := { rest := Json.write l v ++ white } }
  have h : s.At 0 [] ([] ++ (Json.writeAt l 1 v ++ white)) :=
    ⟨rfl, rfl, rfl, rfl, rfl, by rintro k ⟨⟩, by simp [s]⟩
  obtain ⟨n, s', h', hn, hrun⟩ := Scanner.scans_of_isCarried hl hv 1 [] h Scanner.isWhite_nil
  have hlength : n ≤ (Json.write l v ++ white).length := Nat.le_trans (Nat.le_add_right _ _) hn
  obtain ⟨fuel, hfuel⟩ : ∃ fuel, (Json.write l v ++ white).length + 2 = n + (fuel + 1) :=
    ⟨(Json.write l v ++ white).length + 1 - n, by omega⟩
  rw [tokens, seesChar_mark_write hv, if_neg Bool.false_ne_true, hfuel, hrun, h'.run_end hwhite,
    List.nil_append]

end Yaml

end PushButton
