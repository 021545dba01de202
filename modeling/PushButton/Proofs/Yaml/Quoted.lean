import PushButton.Proofs.Json.Quoted
import PushButton.Proofs.Yaml.Cursor
import PushButton.Yaml.Node

/-!
# Quoted texts are carried over

Between double quotes JSON and YAML agree on the escapes that JSON writes, but not on all symbols
that it leaves as they are. YAML folds lines: it drops white space around the separators of lines
and of paragraphs, takes the next-line control for a line ending, and refuses the mark of a document
behind a separator. In a text without such places every step of the reader takes a run of symbols
off the front and gives it as it is, so the text is read as it was written.
-/

namespace PushButton

namespace Symbol

/-- A separator of lines or of paragraphs. -/
def isSeparator (s : Symbol) : Bool := s = .char '\u2028' || s = .char '\u2029'

end Symbol

/-- A text that begins like the mark of a document, standing alone. -/
def Text.startsMark (t : Text) : Bool :=
  (("---" : Text).isPrefixOf t || ("..." : Text).isPrefixOf t) &&
    t[3]?.any fun s => s = .char ' ' || s.isSeparator

/-- A symbol of a text, in front of the rest of it, is carried over. -/
structure Symbol.IsCarried (s : Symbol) (rest : Text) : Prop where
  /-- It is a control character, which is escaped, or may stand in a document. -/
  allowed : 0x20 ≤ s.code → Yaml.isAllowed s = true
  /-- It is not the control of the next line, which would become a line feed. -/
  noNextLine : s ≠ .char '\x85'
  /-- No separator follows a space, which would be dropped. -/
  space : s = .char ' ' → rest.head?.any Symbol.isSeparator = false
  /-- No space follows a separator, and nothing that looks like the mark of a document. -/
  separator : s.isSeparator = true → rest.head? ≠ some (.char ' ') ∧ rest.startsMark = false

instance (s : Symbol) (rest : Text) : Decidable (s.IsCarried rest) :=
  decidable_of_iff
    ((0x20 ≤ s.code → Yaml.isAllowed s = true) ∧ s ≠ .char '\x85' ∧
      (s = .char ' ' → rest.head?.any Symbol.isSeparator = false) ∧
      (s.isSeparator = true → rest.head? ≠ some (.char ' ') ∧ rest.startsMark = false))
    ⟨fun ⟨h₁, h₂, h₃, h₄⟩ => ⟨h₁, h₂, h₃, h₄⟩, fun ⟨h₁, h₂, h₃, h₄⟩ => ⟨h₁, h₂, h₃, h₄⟩⟩

namespace Text

/-- A text that YAML reads between double quotes as JSON writes it: each of its symbols is carried
over. -/
def IsCarried : Text → Prop
  | [] => True
  | s :: rest => s.IsCarried rest ∧ IsCarried rest

/-- Whether a text is carried over can be computed. -/
def decideIsCarried : (t : Text) → Decidable t.IsCarried
  | [] => .isTrue trivial
  | s :: rest =>
    have := decideIsCarried rest
    inferInstanceAs (Decidable (s.IsCarried rest ∧ IsCarried rest))

instance (t : Text) : Decidable t.IsCarried := decideIsCarried t

/-- The end of a text that is carried over is carried over. -/
theorem IsCarried.of_append {t u : Text} (h : IsCarried (t ++ u)) : u.IsCarried := by
  induction t with
  | nil => exact h
  | cons s t ih => exact ih h.2

/-- The symbols of a text that is carried over. -/
theorem IsCarried.of_mem {t : Text} (h : t.IsCarried) {s : Symbol} (hs : s ∈ t) :
    ∃ rest, s.IsCarried rest := by
  obtain ⟨before, after, rfl⟩ := List.append_of_mem hs
  exact ⟨after, h.of_append.1⟩

end Text

open Json (escaped)

namespace Yaml

/-! ## What stands behind the opening quote -/

/-- A symbol that is written between double quotes as it is. -/
def isRaw (s : Symbol) : Bool := 0x20 ≤ s.code && s ≠ .char '"' && s ≠ .char '\\'

/-- A text as it is written behind its opening quote, and what follows it. -/
def inQuotes (t more : Text) : Text := t.flatMap (escaped .full) ++ .char '"' :: more

/-- A raw symbol stands for itself. -/
theorem escaped_of_isRaw {s : Symbol} (h : isRaw s = true) : escaped .full s = [s] := by
  simp only [isRaw, Bool.and_eq_true, decide_eq_true_eq] at h
  obtain ⟨⟨hcode, hquote⟩, hslash⟩ := h
  unfold escaped
  split
  · exact (hquote rfl).elim
  · exact (hslash rfl).elim
  iterate 5
    · exact absurd hcode (by decide)
  · rw [if_neg (by omega), if_neg (by simp)]

/-- Every other symbol is written behind a backslash. -/
theorem escaped_of_not_isRaw {s : Symbol} (h : isRaw s = false) :
    ∃ rest, escaped .full s = .char '\\' :: rest := by
  unfold escaped
  split
  iterate 7
    · exact ⟨_, rfl⟩
  · next hquote hslash _ _ _ _ _ =>
    have hcode : s.code < 0x20 := by
      simp only [isRaw, Bool.and_eq_false_iff, decide_eq_false_iff_not, ne_eq, not_not] at h
      obtain (hcode | hs) | hs := h
      · omega
      · exact (hquote hs).elim
      · exact (hslash hs).elim
    rw [if_pos hcode, Json.codeEscape, if_pos (by omega)]
    exact ⟨_, rfl⟩

/-- A text in quotes begins with the written form of its first part. -/
theorem inQuotes_append (t u more : Text) :
    inQuotes (t ++ u) more = t.flatMap (escaped .full) ++ inQuotes u more := by
  rw [inQuotes, List.flatMap_append, List.append_assoc, inQuotes]

/-- A text in quotes begins with the written form of its first symbol. -/
theorem inQuotes_cons (s : Symbol) (t more : Text) :
    inQuotes (s :: t) more = escaped .full s ++ inQuotes t more :=
  inQuotes_append [s] t more |>.trans (by rw [List.flatMap_cons, List.flatMap_nil, List.append_nil])

/-- A symbol that is no quote and no backslash is the first one of the text. -/
theorem inQuotes_eq_cons {t more : Text} {x : Symbol} {rest : Text}
    (h : inQuotes t more = x :: rest) (hquote : x ≠ .char '"') (hslash : x ≠ .char '\\') :
    ∃ t', t = x :: t' ∧ isRaw x = true ∧ rest = inQuotes t' more := by
  cases t with
  | nil =>
    rw [inQuotes, List.flatMap_nil, List.nil_append] at h
    exact (hquote (List.cons.inj h).1.symm).elim
  | cons s t =>
    rw [inQuotes_cons] at h
    cases hs : isRaw s with
    | true =>
      rw [escaped_of_isRaw hs] at h
      obtain ⟨rfl, rfl⟩ := List.cons.inj h
      exact ⟨t, rfl, hs, rfl⟩
    | false =>
      obtain ⟨escape, he⟩ := escaped_of_not_isRaw hs
      rw [he] at h
      exact (hslash (List.cons.inj h).1.symm).elim

/-- Something always follows. -/
theorem exists_inQuotes (t more : Text) : ∃ x rest, inQuotes t more = x :: rest := by
  cases h : inQuotes t more with
  | nil => simp [inQuotes] at h
  | cons x rest => exact ⟨x, rest, rfl⟩

/-- No symbol is written shorter than it is. -/
theorem length_le_inQuotes (t more : Text) : t.length ≤ (inQuotes t more).length := by
  induction t with
  | nil => exact Nat.zero_le _
  | cons s t ih =>
    have hs : 1 ≤ (escaped .full s).length := by
      cases hraw : isRaw s with
      | true => rw [escaped_of_isRaw hraw]; exact Nat.le_refl 1
      | false =>
        obtain ⟨rest, he⟩ := escaped_of_not_isRaw hraw
        rw [he, List.length_cons]
        omega
    rw [inQuotes_cons, List.length_append, List.length_cons]
    omega

/-- A test that no quote and no backslash satisfies is a test of the text's own first symbol. -/
theorem head_inQuotes {p : Symbol → Bool} (hquote : p (.char '"') = false)
    (hslash : p (.char '\\') = false) (t more : Text) :
    (inQuotes t more).head?.any p = t.head?.any fun s => isRaw s && p s := by
  cases t with
  | nil => simp [inQuotes, hquote]
  | cons s t =>
    rw [inQuotes_cons, List.head?_cons, Option.any_some]
    cases hs : isRaw s with
    | true => rw [escaped_of_isRaw hs]; simp
    | false =>
      obtain ⟨escape, he⟩ := escaped_of_not_isRaw hs
      rw [he]
      simp [hslash]

/-- Raw symbols are written as they are. -/
theorem flatMap_escaped_of_isRaw {t : Text} (h : ∀ s ∈ t, isRaw s = true) :
    t.flatMap (escaped .full) = t := by
  induction t with
  | nil => rfl
  | cons s t ih =>
    rw [List.flatMap_cons, escaped_of_isRaw (h s (by simp)),
      ih fun s' hs' => h s' (List.mem_cons_of_mem s hs')]
    rfl

/-- A space or a tab. -/
def isBlank (s : Symbol) : Bool := s = .char ' ' || s = .char '\t'

/-- The blanks in front are the spaces of the text: a tab is escaped. -/
theorem takeWhile_inQuotes {c : Cursor} (run : Text) {u more : Text}
    (hrun : ∀ s ∈ run, s = .char ' ') (hu : u.head? ≠ some (.char ' '))
    (hc : c.rest = inQuotes (run ++ u) more) :
    c.takeWhile isBlank = (run, c.skip run.length) := by
  have hraw : ∀ s ∈ run, isRaw s = true := fun s hs => by rw [hrun s hs]; decide
  have hblank : ∀ s ∈ run, isBlank s = true := fun s hs => by rw [hrun s hs]; decide
  obtain ⟨x, rest, hx⟩ := exists_inQuotes u more
  have hstop : isBlank x = false := by
    have hhead := head_inQuotes (p := isBlank) (by decide) (by decide) u more
    rw [hx, List.head?_cons, Option.any_some] at hhead
    rw [hhead]
    cases u with
    | nil => rfl
    | cons s u =>
      have hspace : s ≠ .char ' ' := fun h => hu (congrArg some h)
      have htab : isRaw s = true → s ≠ .char '\t' := by rintro h rfl; exact absurd h (by decide)
      by_cases h : isRaw s = true
      · simp [isBlank, hspace, htab h]
      · simp [h]
  rw [inQuotes_append, flatMap_escaped_of_isRaw hraw, hx] at hc
  rw [Cursor.takeWhile, Cursor.skipWhile, Cursor.takeWhile_eq hc hblank hstop]

/-- The text in front of a place between quotes, and the place behind it. -/
theorem skip_inQuotes_rest {c : Cursor} {t u more : Text} (hc : c.rest = inQuotes (t ++ u) more) :
    (c.skip (t.flatMap (escaped .full)).length).rest = inQuotes u more :=
  Cursor.skip_rest (hc.trans (inQuotes_append t u more))

/-! ## Line endings -/

/-- No line ends in front of another symbol. -/
theorem lineBreak?_eq_none {c : Cursor} (hc : c.rest.head?.any Symbol.isBreak = false) :
    c.lineBreak? = none := by
  unfold Cursor.lineBreak?
  split
  · next h => simp [h, Symbol.isBreak] at hc
  · next s rest _ h =>
    rw [h, List.head?_cons, Option.any_some] at hc
    have hsep : (s = .char '\u2028' || s = .char '\u2029') = false := by
      simp only [Symbol.isBreak, Bool.or_eq_false_iff] at hc ⊢
      exact ⟨hc.1.2, hc.2⟩
    rw [hsep, hc]
    rfl
  · rfl

/-- A separator is kept. -/
theorem lineBreak?_separator {c : Cursor} {s : Symbol} {rest : Text} (hc : c.rest = s :: rest)
    (hs : s.isSeparator = true) : c.lineBreak? = some (s, c.step) := by
  unfold Cursor.lineBreak?
  split
  · next h =>
    rw [hc] at h
    obtain ⟨rfl, -⟩ := List.cons.inj h
    exact absurd hs (by decide)
  · next h =>
    rw [hc] at h
    obtain ⟨rfl, -⟩ := List.cons.inj h
    exact if_pos hs
  · next h => rw [hc] at h; cases h

/-- What is seen in front without a quote or backslash is the beginning of the text. -/
theorem exists_append_of_inQuotes {m t more : Text} (hm : ∀ s ∈ m, s ≠ .char '"' ∧ s ≠ .char '\\')
    (h : m <+: inQuotes t more) : ∃ u, t = m ++ u := by
  induction m generalizing t with
  | nil => exact ⟨t, rfl⟩
  | cons s m ih =>
    obtain ⟨after, hafter⟩ := h
    obtain ⟨hquote, hslash⟩ := hm s (by simp)
    obtain ⟨t, rfl, -, ht⟩ := inQuotes_eq_cons hafter.symm hquote hslash
    obtain ⟨u, rfl⟩ := ih (fun s' hs' => hm s' (List.mem_cons_of_mem s hs')) ⟨after, ht⟩
    exact ⟨u, rfl⟩

/-- A raw symbol ends a line when it is a separator; only the next-line control does, too. -/
theorem isBreak_of_isRaw {s : Symbol} (hraw : isRaw s = true) (hnext : s ≠ .char '\x85') :
    s.isBreak = s.isSeparator := by
  have hfeed : s ≠ .char '\n' := by rintro rfl; exact absurd hraw (by decide)
  have hreturn : s ≠ .char '\r' := by rintro rfl; exact absurd hraw (by decide)
  simp [Symbol.isBreak, Symbol.isSeparator, hfeed, hreturn, hnext]

/-- A separator is written as it is. -/
theorem isRaw_of_isSeparator {s : Symbol} (hs : s.isSeparator = true) : isRaw s = true := by
  rw [Symbol.isSeparator, Bool.or_eq_true, decide_eq_true_eq, decide_eq_true_eq] at hs
  obtain rfl | rfl := hs <;> decide

/-- In a text that is carried over, lines end at the separators. -/
theorem isBreak_inQuotes {t : Text} (more : Text) (ht : t.IsCarried) :
    (inQuotes t more).head?.any Symbol.isBreak = t.head?.any Symbol.isSeparator := by
  rw [head_inQuotes (by decide) (by decide)]
  cases t with
  | nil => rfl
  | cons s t =>
    rw [List.head?_cons, Option.any_some, Option.any_some]
    cases hraw : isRaw s with
    | true => rw [Bool.true_and, isBreak_of_isRaw hraw ht.1.noNextLine]
    | false =>
      rw [Bool.false_and]
      symm
      by_contra hs
      rw [isRaw_of_isSeparator (Bool.not_eq_false _ ▸ hs)] at hraw
      cases hraw

/-- In a text that is carried over, no line ends where no separator stands. -/
theorem lineBreak?_inQuotes {c : Cursor} {t more : Text} (hc : c.rest = inQuotes t more)
    (ht : t.IsCarried) (hsep : t.head?.any Symbol.isSeparator = false) : c.lineBreak? = none :=
  lineBreak?_eq_none (by rw [hc, isBreak_inQuotes more ht, hsep])

/-- A symbol that is seen as blank is a space or a separator of the text. -/
theorem blank_inQuotes {t more : Text} (ht : t.IsCarried)
    (h : (inQuotes t more).head?.all (fun s => s = .char ' ' || s = .char '\t' || s.isBreak) =
      true) :
    t.head?.any (fun s => s = .char ' ' || s.isSeparator) = true := by
  have hany : (inQuotes t more).head?.any
      (fun s => s = .char ' ' || s = .char '\t' || s.isBreak) = true := by
    obtain ⟨x, rest, hx⟩ := exists_inQuotes t more
    rwa [hx] at h ⊢
  rw [head_inQuotes (by decide) (by decide)] at hany
  cases t with
  | nil => exact absurd hany (by simp)
  | cons s t =>
    rw [List.head?_cons, Option.any_some, Bool.and_eq_true] at hany
    obtain ⟨hraw, hs⟩ := hany
    rw [isBreak_of_isRaw hraw ht.1.noNextLine] at hs
    have htab : s ≠ .char '\t' := by rintro rfl; exact absurd hraw (by decide)
    rw [List.head?_cons, Option.any_some]
    simpa [htab] using hs

/-- A mark of a document is seen only where the text itself has one. -/
theorem seesMark_inQuotes {c : Cursor} {m t more : Text} (hc : c.rest = inQuotes t more)
    (ht : t.IsCarried) (hm : m = ("---" : Text) ∨ m = ("..." : Text)) (hc' : c.seesMark m = true) :
    t.startsMark = true := by
  rw [Cursor.seesMark, Bool.and_eq_true, List.isPrefixOf_iff_prefix, hc] at hc'
  obtain ⟨hbegins, hblank⟩ := hc'
  have hlength : m.length = 3 := by obtain rfl | rfl := hm <;> rfl
  have hne : ∀ s ∈ m, s ≠ .char '"' ∧ s ≠ .char '\\' := by obtain rfl | rfl := hm <;> decide
  obtain ⟨u, rfl⟩ := exists_append_of_inQuotes hne hbegins
  have hraw : m.flatMap (escaped .full) = m := by obtain rfl | rfl := hm <;> rfl
  have hfourth (v : Text) : (m ++ v)[3]? = v.head? := by
    rw [List.getElem?_append_right (by omega), hlength, Nat.sub_self, List.head?_eq_getElem?]
  rw [Cursor.blankAt, Cursor.ahead, hc, inQuotes_append, hraw, hfourth] at hblank
  rw [Text.startsMark, hfourth, blank_inQuotes ht.of_append hblank,
    Bool.and_true, Bool.or_eq_true]
  simp only [List.isPrefixOf_iff_prefix]
  exact hm.imp (fun h => ⟨u, by rw [h]⟩) fun h => ⟨u, by rw [h]⟩

/-- Behind a separator nothing is dropped and no document ends. -/
theorem quotedBreaks_inQuotes {c : Cursor} {t more : Text} (hc : c.rest = inQuotes t more)
    (ht : t.IsCarried) (hspace : t.head? ≠ some (.char ' ')) (hmark : t.startsMark = false)
    (fuel : Nat) (hfuel : t.length < fuel) :
    quotedBreaks fuel c =
      .ok (t.takeWhile Symbol.isSeparator, c.skip (t.takeWhile Symbol.isSeparator).length) := by
  induction fuel generalizing c t with
  | zero => omega
  | succ fuel ih =>
    have hdocument : c.seesDocumentMark = false := by
      by_contra h
      rw [Bool.not_eq_false, Cursor.seesDocumentMark, Bool.or_eq_true] at h
      have : t.startsMark = true := h.elim (seesMark_inQuotes hc ht (.inl rfl))
        (seesMark_inQuotes hc ht (.inr rfl))
      exact absurd this (by rw [hmark]; simp)
    have hstay : (c.skipWhile fun s => s = .char ' ' || s = .char '\t') = c :=
      congrArg Prod.snd (takeWhile_inQuotes [] (by simp) hspace hc)
    rw [quotedBreaks, hdocument, if_neg Bool.false_ne_true, hstay]
    dsimp only
    cases t with
    | nil =>
      rw [lineBreak?_inQuotes hc ht rfl]
      rfl
    | cons s t =>
      cases hs : s.isSeparator with
      | false =>
        rw [lineBreak?_inQuotes hc ht hs, List.takeWhile_cons, hs]
        rfl
      | true =>
        have hrest : c.rest = s :: inQuotes t more := by
          rw [hc, inQuotes_cons, escaped_of_isRaw (isRaw_of_isSeparator hs)]
          rfl
        obtain ⟨hspace', hmark'⟩ := ht.1.separator hs
        have hlater := ih (Cursor.step_rest hrest) ht.2 hspace' hmark'
          (by rw [List.length_cons] at hfuel; omega)
        rw [lineBreak?_separator hrest hs, List.takeWhile_cons, if_pos hs]
        dsimp only
        rw [hlater]
        rfl

/-! ## Quoted texts -/

/-- The reader takes some symbols off the front of a text between quotes. -/
def Takes (c : Cursor) (run : Text) : Prop :=
  ∀ fuel, quotedFrom true (fuel + 1) c =
    (quotedFrom true fuel (c.skip (run.flatMap (escaped .full)).length)).map
      fun (more, last) => (run ++ more, last)

/-- A backslash and a letter stand for one symbol. -/
theorem takes_backslash {c : Cursor} {s e : Symbol} {ch : Char} {rest : Text}
    (hs : escaped .full s = [.char '\\', e]) (he : escape? e = some ch) (hch : s = .char ch)
    (hc : c.rest = escaped .full s ++ rest) : Takes c [s] := by
  intro fuel
  rw [hs] at hc
  have hstep : c.step.rest = e :: rest := Cursor.step_rest hc
  have hnext : c.next = some (.char '\\') := by rw [Cursor.next, hc]; rfl
  have hnext' : c.step.next = some e := by rw [Cursor.next, hstep]; rfl
  have hlength : ([s].flatMap (escaped .full)).length = 2 := by
    rw [List.flatMap_cons, List.flatMap_nil, hs]
    rfl
  rw [quotedFrom, hlength, hch]
  simp only [hnext, hnext', he]
  rfl

/-- The four digits of a control character stand for its number. -/
theorem hexNumber?_hex : ∀ n < 0x20, hexNumber? 4 (Text.hex 4 n) = some n := by decide

/-- More symbols behind the digits make no difference. -/
theorem hexNumber?_append {n k : Nat} {digits : Text} (rest : Text) (hlength : digits.length = n)
    (h : hexNumber? n digits = some k) : hexNumber? n (digits ++ rest) = some k := by
  rw [hexNumber?, if_neg (by omega), List.take_of_length_le (by omega)] at h
  rw [hexNumber?, if_neg (by rw [List.length_append]; omega), List.take_left' hlength]
  exact h

/-- A control character is given by its number. -/
theorem takes_code {c : Cursor} {s : Symbol} {rest : Text} (hcode : s.code < 0x20)
    (hs : escaped .full s = Json.codeEscape s) (hc : c.rest = escaped .full s ++ rest) :
    Takes c [s] := by
  intro fuel
  have hfour : (Text.hex 4 s.code).length = 4 := by
    rw [(Json.hex_four_of_lt s.code hcode).1]
    rfl
  have hescape : Json.codeEscape s = .char '\\' :: .char 'u' :: Text.hex 4 s.code := by
    rw [Json.codeEscape, if_pos (by omega)]
    rfl
  have hlength : ([s].flatMap (escaped .full)).length = 6 := by
    rw [List.flatMap_cons, List.flatMap_nil, List.append_nil, hs, hescape, List.length_cons,
      List.length_cons, hfour]
  rw [hs, hescape] at hc
  have hstep : c.step.rest = .char 'u' :: (Text.hex 4 s.code ++ rest) := Cursor.step_rest hc
  have hstep' : c.step.step.rest = Text.hex 4 s.code ++ rest := Cursor.step_rest hstep
  have hnext : c.next = some (.char '\\') := by rw [Cursor.next, hc]; rfl
  have hnext' : c.step.next = some (.char 'u') := by rw [Cursor.next, hstep]; rfl
  have hnumber : hexNumber? 4 c.step.step.rest = some s.code := by
    rw [hstep']
    exact hexNumber?_append rest hfour (hexNumber?_hex s.code hcode)
  have hlimit : s.code < 0x110000 := by omega
  have hnone : escape? (.char 'u') = none := rfl
  have hdigits : escapeDigits? (.char 'u') = some 4 := rfl
  rw [quotedFrom, hlength]
  simp only [hnext, hnext', hnone, hdigits, hnumber, hlimit, Symbol.ofCode_code]
  rfl

/-- Every symbol that is not raw is given by its escape. -/
theorem takes_escaped {c : Cursor} {s : Symbol} {rest : Text} (hraw : isRaw s = false)
    (hc : c.rest = escaped .full s ++ rest) : Takes c [s] := by
  by_cases hcode : escaped .full s = Json.codeEscape s ∧ s.code < 0x20
  · exact takes_code hcode.2 hcode.1 hc
  · unfold escaped at hcode
    split at hcode
    iterate 7
      · exact takes_backslash rfl rfl rfl hc
    · next hquote hslash _ _ _ _ _ =>
      rw [isRaw] at hraw
      by_cases hlow : s.code < 0x20
      · rw [if_pos hlow] at hcode
        exact (hcode ⟨rfl, hlow⟩).elim
      · have hhigh : 0x20 ≤ s.code := by omega
        have hquote' : s ≠ .char '"' := hquote
        have hslash' : s ≠ .char '\\' := hslash
        simp [hhigh, hquote', hslash'] at hraw

/-- A raw symbol that is no space and no separator stands for itself. -/
theorem takes_raw {c : Cursor} {s : Symbol} {rest : Text} (hraw : isRaw s = true)
    (hnext : s ≠ .char '\x85') (hspace : s ≠ .char ' ') (hsep : s.isSeparator = false)
    (hc : c.rest = s :: rest) : Takes c [s] := by
  intro fuel
  have hs : c.next = some s := by rw [Cursor.next, hc]; rfl
  have htab : s ≠ .char '\t' := by rintro rfl; exact absurd hraw (by decide)
  have hbreak : s.isBreak = false := (isBreak_of_isRaw hraw hnext).trans hsep
  simp only [isRaw, Bool.and_eq_true, decide_eq_true_eq] at hraw
  obtain ⟨⟨hcode, hquote⟩, hslash⟩ := hraw
  rw [quotedFrom, flatMap_escaped_of_isRaw (by simp [isRaw, hcode, hquote, hslash])]
  simp [hs, hquote, hslash, hspace, htab, hbreak]
  rfl

/-- Spaces in front of what is no separator stand for themselves. -/
theorem takes_spaces {c : Cursor} {run u more : Text} (hrun : ∀ s ∈ run, s = .char ' ')
    (hne : run ≠ []) (hu : u.IsCarried) (hspace : u.head? ≠ some (.char ' '))
    (hsep : u.head?.any Symbol.isSeparator = false) (hc : c.rest = inQuotes (run ++ u) more) :
    Takes c run := by
  intro fuel
  have hraw : ∀ s ∈ run, isRaw s = true := fun s hs => by rw [hrun s hs]; decide
  have hnext : c.next = some (.char ' ') := by
    obtain ⟨s, run, rfl⟩ := List.exists_cons_of_ne_nil hne
    rw [Cursor.next, hc, List.cons_append, inQuotes_cons, hrun s (by simp)]
    rfl
  have htake : (c.takeWhile fun s => s = .char ' ' || s = .char '\t') = (run, c.skip run.length) :=
    takeWhile_inQuotes run hrun hspace hc
  have hrest := skip_inQuotes_rest hc
  rw [flatMap_escaped_of_isRaw hraw] at hrest ⊢
  rw [quotedFrom]
  simp only [hnext, htake, lineBreak?_inQuotes hrest hu hsep]
  rfl

/-- Separators in front of what is no space and no mark stand for themselves. -/
theorem takes_separators {c : Cursor} {s : Symbol} {t more : Text} (hs : s.isSeparator = true)
    (ht : Text.IsCarried (s :: t)) (hc : c.rest = inQuotes (s :: t) more) :
    Takes c (s :: t.takeWhile Symbol.isSeparator) := by
  intro fuel
  have hraw : ∀ s' ∈ s :: t.takeWhile Symbol.isSeparator, isRaw s' = true := by
    intro s' hs'
    obtain rfl | hs' := List.mem_cons.1 hs'
    · exact isRaw_of_isSeparator hs
    · exact isRaw_of_isSeparator (List.all_eq_true.1 List.all_takeWhile s' hs')
  have hrest : c.rest = s :: inQuotes t more := by
    rw [hc, inQuotes_cons, escaped_of_isRaw (isRaw_of_isSeparator hs)]
    rfl
  have hnext : c.next = some s := by rw [Cursor.next, hrest]; rfl
  have hspace : s ≠ .char ' ' := by rintro rfl; exact absurd hs (by decide)
  have hfeed : s ≠ .char '\n' := by rintro rfl; exact absurd hs (by decide)
  have hquote : s ≠ .char '"' := by rintro rfl; exact absurd hs (by decide)
  have hslash : s ≠ .char '\\' := by rintro rfl; exact absurd hs (by decide)
  have hbreak : s.isBreak = true :=
    (isBreak_of_isRaw (isRaw_of_isSeparator hs) ht.1.noNextLine).trans hs
  have htake : (c.takeWhile fun s => s = .char ' ' || s = .char '\t') = ([], c) :=
    takeWhile_inQuotes [] (u := s :: t) (by simp) (by simp [hspace]) hc
  obtain ⟨hspace', hmark⟩ := ht.1.separator hs
  have hlater := quotedBreaks_inQuotes (Cursor.step_rest hrest) ht.2 hspace' hmark
    (c.step.rest.length + 1) (by
      rw [Cursor.step_rest hrest]
      exact Nat.lt_succ_of_le (length_le_inQuotes t more))
  rw [flatMap_escaped_of_isRaw hraw, quotedFrom]
  simp [hnext, hquote, hslash, hbreak, htake, lineBreak?_separator hrest hs, hlater, folded, hfeed]
  rfl

/-- A text begins with a number of spaces. -/
theorem exists_spaces (t : Text) :
    ∃ n u, t = List.replicate n (.char ' ') ++ u ∧ u.head? ≠ some (.char ' ') := by
  induction t with
  | nil => exact ⟨0, [], rfl, by simp⟩
  | cons s t ih =>
    by_cases hs : s = .char ' '
    · obtain ⟨n, u, rfl, hu⟩ := ih
      exact ⟨n + 1, u, by rw [hs, List.replicate_succ, List.cons_append], hu⟩
    · exact ⟨0, s :: t, rfl, by simpa using hs⟩

/-- The reader takes something off the front of every text that is carried over. -/
theorem exists_takes {c : Cursor} {t more : Text} (hc : c.rest = inQuotes t more)
    (ht : t.IsCarried) (hne : t ≠ []) :
    ∃ run u, t = run ++ u ∧ run ≠ [] ∧ Takes c run := by
  obtain ⟨s, t, rfl⟩ := List.exists_cons_of_ne_nil hne
  have hc' : c.rest = escaped .full s ++ inQuotes t more := by rw [hc, inQuotes_cons]
  cases hraw : isRaw s with
  | false => exact ⟨[s], t, rfl, by simp, takes_escaped hraw hc'⟩
  | true =>
    cases hsep : s.isSeparator with
    | true =>
      refine ⟨s :: t.takeWhile Symbol.isSeparator, t.dropWhile Symbol.isSeparator, ?_, by simp,
        takes_separators hsep ht hc⟩
      rw [List.cons_append, List.takeWhile_append_dropWhile]
    | false =>
      by_cases hspace : s = .char ' '
      · subst hspace
        obtain ⟨n, u, ht', hu⟩ := exists_spaces (.char ' ' :: t)
        obtain _ | n := n
        · rw [List.replicate_zero, List.nil_append] at ht'
          exact (hu (by rw [← ht']; rfl)).elim
        rw [ht'] at hc ht ⊢
        -- The last of the spaces is followed by what is no separator.
        have hlast : Text.IsCarried (List.replicate n (.char ' ') ++ .char ' ' :: u) := by
          rwa [List.replicate_succ', List.append_assoc] at ht
        exact ⟨_, u, rfl, by simp, takes_spaces (fun s hs => List.eq_of_mem_replicate hs) (by simp)
          ht.of_append hu (hlast.of_append.1.space rfl) hc⟩
      · rw [escaped_of_isRaw hraw] at hc'
        exact ⟨[s], t, rfl, by simp, takes_raw hraw ht.1.noNextLine hspace hsep hc'⟩

/-- A text that is carried over is read between double quotes as it was. -/
theorem quotedFrom_inQuotes {c : Cursor} {t more : Text} (hc : c.rest = inQuotes t more)
    (ht : t.IsCarried) {fuel : Nat} (hfuel : t.length < fuel) :
    quotedFrom true fuel c = .ok (t, c.skip (inQuotes t []).length) := by
  induction fuel generalizing c t with
  | zero => omega
  | succ fuel ih =>
    by_cases hne : t = []
    · subst hne
      have hnext : c.next = some (.char '"') := by rw [Cursor.next, hc]; rfl
      rw [quotedFrom]
      simp only [hnext]
      rfl
    · obtain ⟨run, u, rfl, hrun, htakes⟩ := exists_takes hc ht hne
      have hlength : u.length < fuel := by
        rw [List.length_append] at hfuel
        have := List.length_pos_iff.2 hrun
        omega
      rw [htakes fuel, ih (skip_inQuotes_rest hc) ht.of_append hlength,
        inQuotes_append, List.length_append, Cursor.skip_add]
      rfl

/-- The written form of a text, read from its first quote on. -/
theorem quotedScalar_quoted {c : Cursor} {t more : Text}
    (hc : c.rest = Json.quoted .full t ++ more) (ht : t.IsCarried) :
    quotedScalar true c = .ok (t, c.skip (Json.quoted .full t).length) := by
  have hrest : c.rest = .char '"' :: inQuotes t more := by
    rw [hc, Json.quoted, inQuotes]
    simp
  have hfuel : t.length < c.rest.length + 1 := by
    have := length_le_inQuotes t more
    rw [hrest, List.length_cons]
    omega
  rw [quotedScalar, quotedFrom_inQuotes (Cursor.step_rest hrest) ht hfuel, Json.quoted,
    List.cons_append, List.length_cons]
  rfl

end Yaml

end PushButton
