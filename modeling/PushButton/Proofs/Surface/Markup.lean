import PushButton.Surface.Markup

/-!
# Texts inside markup

What a text with markup means is found piece by piece, as long as no tag reaches from one piece into
the next and no backslashes are left over between them. A text that was escaped means itself when
each of its backslashes before an opening bracket stands before a tag; only backslashes at its end
still depend on what follows. A text that was not escaped means itself when it holds no markup.
-/

namespace PushButton

namespace Markup

/-! ## Brackets and tags -/

/-- A square bracket. -/
def isBracket (s : Symbol) : Bool := s = .char '[' || s = .char ']'

/-- The first bracket of a text is a closing one. -/
def closesFirst (t : Text) : Bool := (t.find? isBracket).any fun s => s = .char ']'

/-- The last opening bracket of a text begins a tag that does not end in the text. -/
def leavesOpen : Text → Bool
  | [] => false
  | s :: rest => s = .char '[' && rest.head?.any opens && !rest.any isBracket || leavesOpen rest

/-- Every backslash in front of an opening bracket stands in front of a tag; a backslash may stand
in front of the text. -/
def isSpelled (behindSlash : Bool) : Text → Bool
  | [] => true
  | s :: rest =>
    !(behindSlash && s = .char '[' && (tag? rest).isNone) && isSpelled (s = .char '\\') rest

/-- The text holds a tag, or a backslash in front of an opening bracket; a backslash may stand in
front of the text. -/
def hasMarkup (behindSlash : Bool) : Text → Bool
  | [] => false
  | s :: rest =>
    s = .char '[' && (behindSlash || (tag? rest).isSome) || hasMarkup (s = .char '\\') rest

/-- The number of backslashes at the end of a text. -/
def endingSlashes (t : Text) : Nat := (t.reverse.takeWhile fun s => s = .char '\\').length

/-- No symbol of a text has a meaning in markup. -/
def IsInert (t : Text) : Prop := ∀ s ∈ t, isBracket s = false ∧ s ≠ .char '\\'

instance (t : Text) : Decidable (IsInert t) := inferInstanceAs (Decidable (∀ s ∈ t, _))

/-- Nothing at the beginning of a text has to do with backslashes in front of it. -/
def IsApart (t : Text) : Prop := ∀ s ∈ t.head?, s ≠ .char '[' ∧ s ≠ .char '\\' ∧ opens s = false

instance (t : Text) : Decidable (IsApart t) := inferInstanceAs (Decidable (∀ s ∈ t.head?, _))

/-- A tag does not go on with what has nothing to do with what is in front of it. -/
theorem IsApart.head?_any_opens {t : Text} (h : IsApart t) : t.head?.any opens = false := by
  cases t with
  | nil => rfl
  | cons s t => exact (h s rfl).2.2

/-- A symbol with which a tag begins is no bracket. -/
theorem isBracket_of_opens {s : Symbol} (h : opens s = true) : isBracket s = false := by
  unfold isBracket
  rw [Bool.or_eq_false_iff, decide_eq_false_iff_not, decide_eq_false_iff_not]
  constructor
  · rintro rfl
    exact absurd h (by decide)
  · rintro rfl
    exact absurd h (by decide)

/-- What stands inside brackets ends where the first bracket is a closing one. -/
theorem isSome_inside? (t : Text) : (inside? t).isSome = closesFirst t := by
  induction t with
  | nil => rfl
  | cons s rest ih =>
    unfold inside? closesFirst
    by_cases hclose : s = .char ']'
    · subst hclose
      rfl
    · rw [if_neg hclose]
      by_cases hopen : s = .char '['
      · subst hopen
        rfl
      · rw [if_neg hopen, Option.isSome_map, ih, List.find?_cons_of_neg (by simp [isBracket, *])]
        rfl

/-- A text begins with a tag when its first symbol does and its first bracket is a closing one. -/
theorem isSome_tag? (t : Text) : (tag? t).isSome = (t.head?.any opens && closesFirst t) := by
  cases t with
  | nil => rfl
  | cons s rest =>
    rw [tag?]
    by_cases hopens : opens s = true
    · have hbracket : ¬isBracket s = true := by simp [isBracket_of_opens hopens]
      rw [if_pos hopens, Option.isSome_map, isSome_inside?]
      simp [closesFirst, hopens, List.find?_cons_of_neg hbracket]
    · rw [if_neg hopens]
      simp [hopens]

/-- A text begins with no tag. -/
theorem tag?_eq_none_iff {t : Text} :
    tag? t = none ↔ t.head?.any opens = false ∨ closesFirst t = false := by
  rw [← Option.not_isSome_iff_eq_none, isSome_tag?, Bool.not_eq_true, Bool.and_eq_false_iff]

/-- The first bracket of two texts. -/
theorem closesFirst_append (t u : Text) :
    closesFirst (t ++ u) = (closesFirst t || !t.any isBracket && closesFirst u) := by
  unfold closesFirst
  rw [List.find?_append]
  cases hfind : t.find? isBracket with
  | none =>
    have hnone : t.any isBracket = false := by
      rw [List.any_eq_false]
      exact List.find?_eq_none.mp hfind
    simp [hnone]
  | some s =>
    have hsome : t.any isBracket = true := by
      rw [List.any_eq_true]
      exact ⟨s, List.mem_of_find?_eq_some hfind, List.find?_some hfind⟩
    simp [hsome]

/-- An inert text has no bracket. -/
theorem IsInert.find?_eq_none {t : Text} (h : IsInert t) : t.find? isBracket = none :=
  List.find?_eq_none.mpr fun s hs => by simp [(h s hs).1]

/-- An inert text does not change which bracket is the first. -/
theorem closesFirst_inert {t : Text} (h : IsInert t) (u : Text) :
    closesFirst (t ++ u) = closesFirst u := by
  unfold closesFirst
  rw [List.find?_append, h.find?_eq_none, Option.none_or]

/-- Backslashes are no brackets. -/
theorem find?_slashes (n : Nat) : (slashes n).find? isBracket = none :=
  List.find?_eq_none.mpr fun s hs => by
    rw [List.eq_of_mem_replicate hs]
    decide

/-- A text begins with a tag whatever follows it. -/
theorem isSome_tag?_append {t rest : Text} (h : (tag? t).isSome = true) :
    (tag? (t ++ rest)).isSome = true := by
  rw [isSome_tag?, Bool.and_eq_true] at h ⊢
  obtain ⟨hopens, hcloses⟩ := h
  refine ⟨?_, by rw [closesFirst_append, hcloses, Bool.true_or]⟩
  cases t with
  | nil => exact absurd hopens (by decide)
  | cons s t => exact hopens

/-! ## Pieces of a text with markup -/

/-- With some styles open, a piece means a text in front of a rest, and leaves other styles open. -/
def Reads (opened opened' : List Text) (piece meaning rest : Text) : Prop :=
  ∀ position, resolveFrom position opened 0 0 (piece ++ rest) =
    (resolveFrom (position + piece.length) opened' 0 0 rest).map (meaning ++ ·)

section Pieces

variable {opened opened' opened'' : List Text} {piece meaning piece' meaning' rest : Text}

/-- Nothing means nothing. -/
theorem Reads.nil : Reads opened opened [] [] rest := by
  intro position
  cases hrest : resolveFrom position opened 0 0 rest with
  | error e => simp [hrest, Except.map]
  | ok t => simp [hrest, Except.map]

/-- One piece is read behind another. -/
theorem Reads.append (h : Reads opened opened' piece meaning (piece' ++ rest))
    (h' : Reads opened' opened'' piece' meaning' rest) :
    Reads opened opened'' (piece ++ piece') (meaning ++ meaning') rest := by
  intro position
  rw [List.append_assoc, h, h', List.length_append, Nat.add_assoc]
  cases resolveFrom (position + (piece.length + piece'.length)) opened'' 0 0 rest with
  | error e => rfl
  | ok t => simp [Except.map]

/-- What a whole text means. -/
theorem Reads.resolve_eq (h : Reads [] opened piece meaning []) :
    resolve piece = .ok (visible meaning) := by
  have hread := h 0
  rw [List.append_nil] at hread
  unfold resolve
  rw [hread]
  simp [resolveFrom, Except.map, slashes]

/-- Backslashes are counted. -/
theorem resolveFrom_slashes (position pending n : Nat) (t : Text) :
    resolveFrom position opened pending 0 (slashes n ++ t) =
      resolveFrom (position + n) opened (pending + n) 0 t := by
  induction n generalizing position pending with
  | zero => rfl
  | succ n ih =>
    have hcons : slashes (n + 1) ++ t = .char '\\' :: (slashes n ++ t) := rfl
    rw [hcons, resolveFrom, if_pos rfl, ih, Nat.add_assoc, Nat.add_assoc, Nat.add_comm 1 n]

/-- Backslashes in front of an ordinary symbol stand for themselves. -/
theorem reads_slashes_symbol (n : Nat) {s : Symbol} (hslash : s ≠ .char '\\')
    (hbracket : s ≠ .char '[') :
    Reads opened opened (slashes n ++ [s]) (slashes n ++ [s]) rest := by
  intro position
  rw [List.append_assoc, resolveFrom_slashes, List.singleton_append, resolveFrom, if_neg hslash,
    if_neg hbracket, Nat.zero_add, List.length_append]
  have hlength : position + n + 1 = position + ((slashes n).length + [s].length) := by
    simp [slashes, Nat.add_assoc]
  rw [hlength]
  simp

/-- An opening bracket that begins no tag stands for itself. -/
theorem reads_bracket (htag : tag? rest = none) :
    Reads opened opened [.char '['] [.char '['] rest := by
  intro position
  rw [List.singleton_append, resolveFrom, if_neg (by decide), if_pos rfl, htag]
  rfl

/-- A tag behind an odd number of backslashes is an ordinary text. -/
theorem reads_protected (n : Nat) (htag : (tag? rest).isSome = true) :
    Reads opened opened (slashes (2 * n + 1) ++ [.char '[']) (slashes n ++ [.char '[']) rest := by
  intro position
  obtain ⟨tag, htag⟩ := Option.isSome_iff_exists.mp htag
  have hodd : (0 + (2 * n + 1)) % 2 = 1 := by omega
  have hhalf : (0 + (2 * n + 1)) / 2 = n := by omega
  have hlength : position + (2 * n + 1) + 1 =
      position + (slashes (2 * n + 1) ++ [Symbol.char '[']).length := by
    simp [slashes, Nat.add_assoc]
  rw [List.append_assoc, resolveFrom_slashes, List.singleton_append, resolveFrom,
    if_neg (by decide), if_pos rfl, htag]
  dsimp only
  rw [if_pos hodd, hhalf, hlength]
  simp

/-- Backslashes in front of what has nothing to do with them stand for themselves. -/
theorem reads_slashes (n : Nat) (hrest : IsApart rest) :
    Reads opened opened (slashes n) (slashes n) rest := by
  intro position
  have hlength : (slashes n).length = n := List.length_replicate
  rw [resolveFrom_slashes, hlength, Nat.zero_add]
  cases rest with
  | nil => simp [resolveFrom, Except.map, slashes]
  | cons s rest =>
    obtain ⟨hbracket, hslash, -⟩ := hrest s rfl
    rw [resolveFrom, resolveFrom, if_neg hslash, if_neg hslash, if_neg hbracket, if_neg hbracket]
    cases resolveFrom (position + n + 1) opened 0 0 rest with
    | error e => rfl
    | ok t => simp [Except.map, slashes]

/-- An inert text stands for itself. -/
theorem IsInert.reads {t : Text} (h : IsInert t) : Reads opened opened t t rest := by
  induction t with
  | nil => exact Reads.nil
  | cons s t ih =>
    obtain ⟨hbracket, hslash⟩ := h s List.mem_cons_self
    have hopen : s ≠ .char '[' := by
      rintro rfl
      exact absurd hbracket (by decide)
    have hhead : Reads opened opened [s] [s] (t ++ rest) := reads_slashes_symbol 0 hslash hopen
    exact hhead.append (ih fun s hs => h s (List.mem_cons_of_mem _ hs))

/-! ## Tags -/

/-- What stands inside brackets. -/
theorem inside?_append {tag : Text} (htag : tag.any isBracket = false) (rest : Text) :
    inside? (tag ++ .char ']' :: rest) = some tag := by
  induction tag with
  | nil => rfl
  | cons s tag ih =>
    obtain ⟨hs, htag⟩ : isBracket s = false ∧ tag.any isBracket = false := by
      rwa [List.any_cons, Bool.or_eq_false_iff] at htag
    unfold isBracket at hs
    rw [Bool.or_eq_false_iff, decide_eq_false_iff_not, decide_eq_false_iff_not] at hs
    rw [List.cons_append, inside?, if_neg hs.2, if_neg hs.1, ih htag]
    rfl

/-- The symbols of a tag are passed over. -/
theorem resolveFrom_skipped (position : Nat) (t rest : Text) :
    resolveFrom position opened 0 t.length (t ++ rest) =
      resolveFrom (position + t.length) opened 0 0 rest := by
  induction t generalizing position with
  | nil => rfl
  | cons s t ih =>
    rw [List.cons_append, List.length_cons, resolveFrom, ih, Nat.add_assoc, Nat.add_comm 1]

/-- A tag with its brackets. -/
def bracketed (tag : Text) : Text := .char '[' :: (tag ++ [.char ']'])

/-- A tag behind an even number of backslashes opens and closes styles. -/
theorem reads_tag (n : Nat) {tag : Text} (hopens : tag.head?.any opens = true)
    (hbrackets : tag.any isBracket = false)
    (happly : ∀ position, apply tag position opened = .ok opened') :
    Reads opened opened' (slashes (2 * n) ++ bracketed tag) (slashes n) rest := by
  intro position
  have htag : tag? ((tag ++ [.char ']']) ++ rest) = some tag := by
    cases tag with
    | nil => exact absurd hopens (by decide)
    | cons s tag =>
      obtain ⟨-, hrest⟩ : isBracket s = false ∧ tag.any isBracket = false := by
        rwa [List.any_cons, Bool.or_eq_false_iff] at hbrackets
      have hs : opens s = true := hopens
      rw [List.append_assoc, List.cons_append, tag?, if_pos hs, List.singleton_append,
        inside?_append hrest]
      rfl
  have heven : ¬(0 + 2 * n) % 2 = 1 := by omega
  have hhalf : (0 + 2 * n) / 2 = n := by omega
  have hskip : tag.length + 1 = (tag ++ [Symbol.char ']']).length := by simp
  have hlength : position + 2 * n + 1 + (tag ++ [Symbol.char ']']).length =
      position + (slashes (2 * n) ++ bracketed tag).length := by
    simp [slashes, bracketed, Nat.add_assoc, Nat.add_comm 1]
  rw [List.append_assoc, resolveFrom_slashes, bracketed, List.cons_append, resolveFrom,
    if_neg (by decide), if_pos rfl, htag]
  dsimp only
  rw [if_neg heven, happly, hhalf]
  dsimp only
  rw [hskip, resolveFrom_skipped, hlength]
  rfl

/-! ## Texts that were not escaped -/

/-- No tag begins at a bracket when none does in its own text and the rest does not close one that
is left open. -/
theorem tag?_append_eq_none {t : Text} (htag : tag? t = none)
    (hopens : rest.head?.any opens = false)
    (hopen : leavesOpen (.char '[' :: t) = true → closesFirst rest = false) :
    tag? (t ++ rest) = none := by
  rw [tag?_eq_none_iff] at htag ⊢
  cases t with
  | nil => exact .inl hopens
  | cons s t =>
    by_cases hs : opens s = true
    · have hcloses : closesFirst (s :: t) = false := htag.resolve_left (by simpa using hs)
      right
      rw [closesFirst_append, hcloses, Bool.false_or]
      by_cases hbracket : (s :: t).any isBracket = true
      · rw [hbracket]
        rfl
      · rw [hopen (by simp [leavesOpen, hs, hbracket]), Bool.and_false]
    · left
      simpa using hs

/-- A tag that a text leaves open is left open behind another symbol. -/
theorem leavesOpen_cons {s : Symbol} {t : Text} (h : leavesOpen t = true) :
    leavesOpen (s :: t) = true := by
  rw [leavesOpen, h, Bool.or_true]

/-- One backslash more in front of a text. -/
theorem slashes_cons (n : Nat) (t : Text) :
    slashes n ++ .char '\\' :: t = slashes (n + 1) ++ t := by
  unfold slashes
  rw [List.replicate_succ', List.append_assoc]
  rfl

/-- A text without markup stands for itself. The induction is on the text; some backslashes in front
of it were not read yet. -/
theorem reads_unescaped (n : Nat) {t : Text} (hmarkup : hasMarkup (0 < n) t = false)
    (hopen : leavesOpen t = true → closesFirst rest = false) (hrest : IsApart rest) :
    Reads opened opened (slashes n ++ t) (slashes n ++ t) rest := by
  induction t generalizing n with
  | nil =>
    rw [List.append_nil]
    exact reads_slashes n hrest
  | cons s t ih =>
    have hopen' : leavesOpen t = true → closesFirst rest = false :=
      fun h => hopen (leavesOpen_cons h)
    rw [hasMarkup, Bool.or_eq_false_iff] at hmarkup
    obtain ⟨hhere, hlater⟩ := hmarkup
    by_cases hslash : s = .char '\\'
    · subst hslash
      rw [slashes_cons]
      exact ih (n + 1) hlater hopen'
    · have hbehind : Reads opened opened t t rest := ih 0 (by simpa [hslash] using hlater) hopen'
      have hsplit : slashes n ++ s :: t = (slashes n ++ [s]) ++ t := by simp
      rw [hsplit]
      by_cases hbracket : s = .char '['
      · subst hbracket
        obtain ⟨rfl, htag⟩ : n = 0 ∧ tag? t = none := by
          simpa using hhere
        have hnone := tag?_append_eq_none htag hrest.head?_any_opens hopen
        exact (reads_bracket hnone).append hbehind
      · exact (reads_slashes_symbol n hslash hbracket).append hbehind

/-! ## Texts that were escaped -/

/-- Escaping does not change which bracket is the first. -/
theorem closesFirst_protectFrom (n : Nat) (t rest : Text) :
    closesFirst (protectFrom n t ++ rest) = closesFirst (t ++ rest) := by
  have hfind : (protectFrom n t).find? isBracket = t.find? isBracket := by
    induction t generalizing n with
    | nil => rw [protectFrom, find?_slashes, List.find?_nil]
    | cons s t ih =>
      have hbehind (k : Nat) :
          (slashes k ++ s :: protectFrom 0 t).find? isBracket = (s :: t).find? isBracket := by
        rw [List.find?_append, find?_slashes, Option.none_or, List.find?_cons, List.find?_cons, ih]
      rw [protectFrom]
      split
      · next hslash =>
        rw [ih, List.find?_cons_of_neg (by subst hslash; decide)]
      · split
        · exact hbehind _
        · exact hbehind _
  unfold closesFirst
  rw [List.find?_append, List.find?_append, hfind]

/-- A text that was escaped behind a backslash begins with a backslash. -/
theorem head?_protectFrom_succ (n : Nat) (t : Text) :
    (protectFrom (n + 1) t).head? = some (.char '\\') := by
  induction t generalizing n with
  | nil => rfl
  | cons s t ih =>
    rw [protectFrom]
    split
    · exact ih (n + 1)
    · split
      · rfl
      · rfl

/-- Escaping does not change whether a text goes on with a tag. -/
theorem tag?_protectFrom_eq_none_iff (t rest : Text) :
    tag? (protectFrom 0 t ++ rest) = none ↔ tag? (t ++ rest) = none := by
  have hhead : (protectFrom 0 t ++ rest).head?.any opens = (t ++ rest).head?.any opens := by
    cases t with
    | nil => rfl
    | cons s t =>
      rw [protectFrom]
      split
      · next hslash =>
        rw [List.head?_append, head?_protectFrom_succ, hslash]
        rfl
      · split
        · next htag =>
          obtain ⟨rfl, -⟩ : s = .char '[' ∧ (tag? t).isSome = true := by simpa using htag
          rfl
        · rfl
  rw [tag?_eq_none_iff, tag?_eq_none_iff, hhead, closesFirst_protectFrom]

/-- A text, behind some backslashes, and its escaped form end in the same backslashes, and what
stands in front of these in the escaped form means what stands in front of them in the text. -/
structure Protected (n : Nat) (t lead shown : Text) (ending : Nat) : Prop where
  /-- The escaped form ends in the backslashes. -/
  escaped : protectFrom n t = lead ++ slashes ending
  /-- It ends in no more of them. -/
  escaped_last : lead.getLast? ≠ some (.char '\\')
  /-- The text ends in the backslashes. -/
  text : slashes n ++ t = shown ++ slashes ending
  /-- It ends in no more of them. -/
  text_last : shown.getLast? ≠ some (.char '\\')
  /-- What stands in front of them keeps its meaning, when backslashes stand in front of tags only
  and the rest does not go on with a tag. -/
  reads : ∀ (opened : List Text) {rest : Text}, isSpelled (0 < n) t = true →
    rest.head?.any opens = false → (leavesOpen t = true → closesFirst rest = false) →
    Reads opened opened lead shown (slashes ending ++ rest)

/-- A text ends in a backslash when another one does that it ends in. -/
theorem getLast?_ne_slash {front t : Text} {s : Symbol} (hs : s ≠ .char '\\')
    (h : t.getLast? ≠ some (.char '\\')) : (front ++ s :: t).getLast? ≠ some (.char '\\') := by
  rw [List.getLast?_append, List.getLast?_cons]
  cases hlast : t.getLast? with
  | none => simpa using hs
  | some x => simpa [hlast] using h

/-- A symbol in front of a text, which is escaped with backslashes of its own. -/
theorem Protected.cons {n m ending : Nat} {s : Symbol} {t lead shown : Text}
    (h : Protected 0 t lead shown ending) (hs : s ≠ .char '\\')
    (hescaped : protectFrom n (s :: t) = slashes m ++ s :: protectFrom 0 t)
    (hread : ∀ (opened : List Text) {rest : Text}, isSpelled (0 < n) (s :: t) = true →
      rest.head?.any opens = false → (leavesOpen (s :: t) = true → closesFirst rest = false) →
      Reads opened opened (slashes m ++ [s]) (slashes n ++ [s]) (protectFrom 0 t ++ rest)) :
    Protected n (s :: t) (slashes m ++ s :: lead) (slashes n ++ s :: shown) ending where
  escaped := by rw [hescaped, h.escaped, List.append_assoc, List.cons_append]
  escaped_last := getLast?_ne_slash hs h.escaped_last
  text := by
    have htext : t = shown ++ slashes ending := h.text
    rw [List.append_assoc, List.cons_append, ← htext]
  text_last := getLast?_ne_slash hs h.text_last
  reads opened _ hspelled hopens hopen := by
    have hhead := hread opened hspelled hopens hopen
    have hlater : isSpelled (0 < 0) t = true := by
      rw [isSpelled, Bool.and_eq_true] at hspelled
      simpa [hs] using hspelled.2
    have hbehind := h.reads opened hlater hopens fun h => hopen (leavesOpen_cons h)
    rw [h.escaped, List.append_assoc] at hhead
    simpa using hhead.append hbehind

/-- Every text and its escaped form end in the same backslashes. The induction is on the text; the
backslashes in front of it were not escaped yet. -/
theorem exists_protected (n : Nat) (t : Text) :
    ∃ lead shown ending, Protected n t lead shown ending := by
  induction t generalizing n with
  | nil => exact ⟨[], [], n, rfl, by simp, by simp, by simp, fun _ _ _ _ _ => Reads.nil⟩
  | cons s t ih =>
    by_cases hslash : s = .char '\\'
    · subst hslash
      obtain ⟨lead, shown, ending, h⟩ := ih (n + 1)
      have hescaped : protectFrom n (.char '\\' :: t) = protectFrom (n + 1) t := by
        rw [protectFrom, if_pos rfl]
      refine ⟨lead, shown, ending, hescaped.trans h.escaped, h.escaped_last,
        (slashes_cons n t).trans h.text, h.text_last, fun opened _ hspelled hopens hopen => ?_⟩
      rw [isSpelled, Bool.and_eq_true] at hspelled
      exact h.reads opened hspelled.2 hopens fun h => hopen (leavesOpen_cons h)
    · obtain ⟨lead, shown, ending, h⟩ := ih 0
      by_cases hbracket : s = .char '['
      · subst hbracket
        by_cases htag : (tag? t).isSome = true
        · refine ⟨_, _, ending, h.cons (m := 2 * n + 1) hslash ?_ fun _ _ _ _ _ => ?_⟩
          · rw [protectFrom, if_neg hslash, if_pos (by simpa using htag)]
          · refine reads_protected n ?_
            rw [Option.isSome_iff_ne_none, ne_eq, tag?_protectFrom_eq_none_iff,
              ← ne_eq, ← Option.isSome_iff_ne_none]
            exact isSome_tag?_append htag
        · have hnone : tag? t = none := by simpa using htag
          refine ⟨_, _, ending, h.cons (m := n) hslash ?_ fun _ _ hspelled hopens hopen => ?_⟩
          · rw [protectFrom, if_neg hslash, if_neg (by simpa using htag)]
          · have hzero : n = 0 := by
              rw [isSpelled, Bool.and_eq_true] at hspelled
              simpa [hnone] using hspelled.1
            subst hzero
            refine reads_bracket ?_
            rw [tag?_protectFrom_eq_none_iff]
            exact tag?_append_eq_none hnone hopens hopen
      · refine ⟨_, _, ending, h.cons (m := n) hslash ?_ fun _ _ _ _ _ => ?_⟩
        · rw [protectFrom, if_neg hslash, if_neg (by simp [hbracket])]
        · exact reads_slashes_symbol n hslash hbracket

/-- A single backslash at the end of an escaped text is doubled. -/
theorem Protected.escape_eq {t lead shown : Text} {ending : Nat}
    (h : Protected 0 t lead shown ending) :
    escape t = lead ++ slashes (if ending = 1 then 2 else ending) := by
  have hlast : lead.reverse.head? ≠ some (.char '\\') := by
    rw [List.head?_reverse]
    exact h.escaped_last
  unfold escape
  rw [h.escaped]
  match ending with
  | 0 =>
    have hnothing : lead ++ slashes 0 = lead := List.append_nil lead
    dsimp only
    rw [if_neg (by decide), hnothing]
    cases hreverse : lead.reverse with
    | nil => rfl
    | cons last before =>
      have hne : last ≠ .char '\\' := by simpa [hreverse] using hlast
      cases before with
      | nil => simp [hne]
      | cons other before => simp [hne]
  | 1 =>
    have hreverse : (lead ++ slashes 1).reverse = .char '\\' :: lead.reverse := by simp [slashes]
    dsimp only
    rw [hreverse]
    cases hbefore : lead.reverse with
    | nil => simp [slashes]
    | cons other before =>
      have hne : other ≠ .char '\\' := by simpa [hbefore] using hlast
      simp [hne, slashes]
  | n + 2 =>
    have hreverse : (lead ++ slashes (n + 2)).reverse =
        .char '\\' :: .char '\\' :: (slashes n ++ lead.reverse) := by
      rw [List.reverse_append, slashes, List.reverse_replicate]
      rfl
    dsimp only
    rw [hreverse]
    simp

/-- The backslashes in which both end are those at the end of the text. -/
theorem Protected.endingSlashes_eq {t lead shown : Text} {ending : Nat}
    (h : Protected 0 t lead shown ending) : endingSlashes t = ending := by
  have htext : t = shown ++ slashes ending := h.text
  have hlast : shown.reverse.head? ≠ some (.char '\\') := by
    rw [List.head?_reverse]
    exact h.text_last
  have hshown : shown.reverse.takeWhile (fun s => decide (s = .char '\\')) = [] := by
    cases hreverse : shown.reverse with
    | nil => rfl
    | cons last before =>
      have hne : last ≠ .char '\\' := by simpa [hreverse] using hlast
      simp [hne]
  unfold endingSlashes
  rw [htext, List.reverse_append, List.takeWhile_append_of_pos, hshown]
  · simp [slashes]
  · intro s hs
    have hs' : s ∈ slashes ending := List.mem_reverse.mp hs
    simpa using List.eq_of_mem_replicate hs'

/-- An escaped text means the text, in front of what has nothing to do with backslashes. -/
theorem reads_escape {t : Text} (hspelled : isSpelled false t = true) (hend : endingSlashes t ≠ 1)
    (hopen : leavesOpen t = true → closesFirst rest = false) (hrest : IsApart rest) :
    Reads opened opened (escape t) t rest := by
  obtain ⟨lead, shown, ending, h⟩ := exists_protected 0 t
  have htext : t = shown ++ slashes ending := h.text
  rw [h.endingSlashes_eq] at hend
  have hlead : Reads opened opened lead shown (slashes ending ++ rest) :=
    h.reads opened hspelled hrest.head?_any_opens hopen
  have hwhole := hlead.append (reads_slashes ending hrest)
  rw [h.escape_eq, if_neg hend]
  rwa [← htext] at hwhole

/-- An escaped text means the text in front of a tag. -/
theorem reads_escape_tag {t tag : Text} (hspelled : isSpelled false t = true)
    (hend : endingSlashes t ≤ 1) (hopens : tag.head?.any opens = true)
    (hbrackets : tag.any isBracket = false)
    (happly : ∀ position, apply tag position opened = .ok opened') :
    Reads opened opened' (escape t ++ bracketed tag) t rest := by
  obtain ⟨lead, shown, ending, h⟩ := exists_protected 0 t
  have htext : t = shown ++ slashes ending := h.text
  rw [h.endingSlashes_eq] at hend
  have hescape : escape t = lead ++ slashes (2 * ending) := by
    rw [h.escape_eq]
    obtain rfl | rfl := Nat.le_one_iff_eq_zero_or_eq_one.mp hend
    · rfl
    · rfl
  have hlead : Reads opened opened lead shown (slashes (2 * ending) ++ bracketed tag ++ rest) := by
    have htwice : slashes (2 * ending) = slashes ending ++ slashes ending := by
      rw [slashes, slashes, List.replicate_append_replicate, Nat.two_mul]
    rw [htwice, List.append_assoc, List.append_assoc]
    refine h.reads opened hspelled ?_ fun _ => ?_
    · cases ending with
      | zero => rfl
      | succ n => rfl
    · unfold closesFirst
      rw [List.find?_append, find?_slashes, Option.none_or]
      rfl
  have hwhole := hlead.append (reads_tag ending hopens hbrackets happly)
  rw [hescape, List.append_assoc]
  rwa [← htext] at hwhole

end Pieces

end Markup

end PushButton
