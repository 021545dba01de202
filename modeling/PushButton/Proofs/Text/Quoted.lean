import Mathlib.Algebra.Group.Nat.Defs
import PushButton.Proofs.Json.Symbols
import PushButton.Proofs.Text.Codes
import PushButton.Text.Quoted

/-!
# Quoted texts can be read back

Between quotes every code point is written by a word, and none of the words begins with the quote or
is the beginning of another one. So the text and the end of the quoted text are found again, whatever
follows. All that is written is printable.
-/

namespace PushButton

/-! ## Printable texts -/

/-- The characters from the space to the tilde are printable. -/
theorem Symbol.holdsOfAscii_isPrintable : Json.HoldsOfAscii fun s => s.isPrintable = true := by
  have hall : ∀ n < 0x7F, 0x20 ≤ n → inRanges n printableRanges = true := by decide +kernel
  exact fun c hlow hhigh => hall c.toNat hhigh hlow

namespace Text

/-- Every symbol of the text is printable. -/
def IsPrintable (t : Text) : Prop := ∀ s ∈ t, s.isPrintable = true

instance (t : Text) : Decidable t.IsPrintable := inferInstanceAs (Decidable (∀ s ∈ t, _))

/-- The empty text is printable. -/
@[simp] theorem isPrintable_nil : IsPrintable [] := nofun

/-- A text is printable when its symbols are. -/
@[simp] theorem isPrintable_cons {s : Symbol} {t : Text} :
    IsPrintable (s :: t) ↔ s.isPrintable = true ∧ t.IsPrintable := List.forall_mem_cons

/-- A text is printable when both of its parts are. -/
@[simp] theorem isPrintable_append {t u : Text} :
    IsPrintable (t ++ u) ↔ t.IsPrintable ∧ u.IsPrintable := List.forall_mem_append

/-- Texts that are put together from printable parts are printable. -/
theorem isPrintable_flatMap {α : Type} {word : α → Text} {as : List α}
    (h : ∀ a ∈ as, (word a).IsPrintable) : IsPrintable (as.flatMap word) := by
  intro s hs
  obtain ⟨a, ha, hmem⟩ := List.mem_flatMap.mp hs
  exact h a ha s hmem

/-- A character that is no digit does not occur in a number in decimal. -/
theorem notMem_ofNat {c : Char} (hc : ¬ (0x30 ≤ c.toNat ∧ c.toNat < 0x3A)) {n : Nat} :
    .char c ∉ ofNat n := by
  intro hmem
  obtain ⟨c, hsame, hdigit⟩ := mem_ofNat hmem
  cases hsame
  exact hc hdigit

/-- Different numbers are written differently. -/
theorem ofNat_injective : Function.Injective ofNat := by
  intro n n' heq
  have hdigits := (List.map_inj_right fun _ _ => Symbol.char.inj).mp heq
  rw [← Nat.ofDigitChars_ten_toDigits (n := n), hdigits, Nat.ofDigitChars_ten_toDigits]

/-- A number in decimal is printable. -/
@[simp] theorem isPrintable_ofNat (n : Nat) : (ofNat n).IsPrintable :=
  Symbol.holdsOfAscii_isPrintable.ofNat n

/-! ## Hexadecimal digits -/

/-- The number that hexadecimal digits stand for. -/
def ofHex (t : Text) : Nat := ofDigits 16 (t.map fun s => s.hexDigit?.getD 0)

/-- One more digit behind the others. -/
theorem ofHex_append_digit {d : Nat} (hd : d < 16) (t : Text) :
    ofHex (t ++ [.char d.digitChar]) = 16 * ofHex t + d := by
  have hdigit : ∀ d < 16, (Symbol.char d.digitChar).hexDigit?.getD 0 = d := by decide
  simp only [ofHex, ofDigits, List.map_append, List.map_cons, List.map_nil, List.foldl_append,
    List.foldl_cons, List.foldl_nil, hdigit d hd]

/-- Zeros in front do not count. -/
theorem ofHex_zeros_append (n : Nat) (t : Text) :
    ofHex (List.replicate n (.char '0') ++ t) = ofHex t := by
  induction n with
  | zero => rfl
  | succ n ih => exact ih

/-- A number is read off its hexadecimal digits. The induction follows the number, which loses its
last digit in each step. -/
theorem ofHex_toDigits (n : Nat) : ofHex ((Nat.toDigits 16 n).map .char) = n := by
  induction n using Nat.strongRecOn with
  | _ n ih =>
    rw [Nat.toDigits_eq_if (by decide)]
    split
    · next hsmall =>
      have h := ofHex_append_digit hsmall []
      rwa [show ofHex [] = 0 from rfl, Nat.mul_zero, Nat.zero_add] at h
    · next hlarge =>
      rw [List.map_append, List.map_singleton, ofHex_append_digit (Nat.mod_lt _ (by decide)),
        ih (n / 16) (by omega)]
      exact Nat.div_add_mod n 16

/-- A number is read off its hexadecimal digits with zeros in front. -/
theorem ofHex_hex (width n : Nat) : ofHex (hex width n) = n :=
  (ofHex_zeros_append _ _).trans (ofHex_toDigits n)

/-- A number that has no more hexadecimal digits than the width is written with that many. -/
theorem length_hex {width n : Nat} (hwidth : 0 < width) (hn : n < 16 ^ width) :
    (hex width n).length = width := by
  have hlength : (Nat.toDigits 16 n).length ≤ width :=
    (Nat.length_toDigits_le_iff (by decide) hwidth).mpr hn
  unfold hex
  rw [List.length_append, List.length_replicate, List.length_map]
  omega

/-- Hexadecimal digits are printable. -/
@[simp] theorem isPrintable_hex (width n : Nat) : (hex width n).IsPrintable :=
  Symbol.holdsOfAscii_isPrintable.hex width n

end Text

/-! ## Code points between quotes -/

namespace Symbol

/-- What is behind a backslash, read as a code point, and the rest. -/
def readEscape? : Text → Option (Symbol × Text)
  | [] => none
  | s :: rest =>
    if s = .char 'n' then some (.char '\n', rest)
    else if s = .char 'r' then some (.char '\r', rest)
    else if s = .char 't' then some (.char '\t', rest)
    else if s = .char 'x' then some (.ofCode (Text.ofHex (rest.take 2)), rest.drop 2)
    else if s = .char 'u' then some (.ofCode (Text.ofHex (rest.take 4)), rest.drop 4)
    else if s = .char 'U' then some (.ofCode (Text.ofHex (rest.take 8)), rest.drop 8)
    else some (s, rest)

/-- The first code point of what stands between quotes, and the rest. -/
def readQuoted? : Text → Option (Symbol × Text)
  | [] => none
  | s :: rest => if s = .char '\\' then readEscape? rest else some (s, rest)

/-- The quotes that are put around texts. -/
def quotes : List Symbol := [.char '\'', .char '"']

/-- A code point is read off its number in hexadecimal digits. -/
theorem ofCode_ofHex (width : Nat) {s : Symbol} (hwidth : 0 < width) (hs : s.code < 16 ^ width)
    (rest : Text) : (ofCode (Text.ofHex ((Text.hex width s.code ++ rest).take width)),
      (Text.hex width s.code ++ rest).drop width) = (s, rest) := by
  have hlength := Text.length_hex hwidth hs
  rw [List.take_left' hlength, List.drop_left' hlength, Text.ofHex_hex, ofCode_code]

/-- Every code point has a number below the last one. -/
theorem code_lt (s : Symbol) : s.code < 0x110000 := by
  cases s with
  | char c =>
    have hv : c.toNat < 0xD800 ∨ (0xDFFF < c.toNat ∧ c.toNat < 0x110000) := c.valid
    have hcode : (Symbol.char c).code = c.toNat := rfl
    omega
  | lone i =>
    have hcode : (Symbol.lone i).code = 0xD800 + i.val := rfl
    omega

/-- A code point is read off what is written for it between quotes. -/
theorem readQuoted?_quoted {quote : Symbol} (hquote : quote ∈ quotes) (s : Symbol) (rest : Text) :
    readQuoted? (quoted quote s ++ rest) = some (s, rest) := by
  unfold quoted
  split
  · next h =>
    -- A quote or a backslash is none of the letters that stand for something else.
    have hself : ∀ x ∈ .char '\\' :: quotes, x ≠ .char 'n' ∧ x ≠ .char 'r' ∧ x ≠ .char 't' ∧
        x ≠ .char 'x' ∧ x ≠ .char 'u' ∧ x ≠ .char 'U' := by decide
    have hs : s ∈ .char '\\' :: quotes := by
      rw [Bool.or_eq_true, decide_eq_true_eq, decide_eq_true_eq] at h
      obtain rfl | rfl := h
      · exact List.mem_cons_of_mem _ hquote
      · exact List.mem_cons_self
    obtain ⟨hn, hr, ht, hx, hu, hU⟩ := hself s hs
    rw [List.cons_append, List.singleton_append, readQuoted?, if_pos rfl, readEscape?, if_neg hn,
      if_neg hr, if_neg ht, if_neg hx, if_neg hu, if_neg hU]
  · next h =>
    split
    · next hline => rw [hline]; rfl
    · split
      · next hreturn => rw [hreturn]; rfl
      · split
        · next htab => rw [htab]; rfl
        · split
          · have hs : s ≠ .char '\\' := by
              rintro rfl
              exact h (by simp)
            rw [List.singleton_append, readQuoted?, if_neg hs]
          · split
            · next hsmall =>
              exact congrArg some (ofCode_ofHex 2 (by decide) (by omega) rest)
            · split
              · next hmiddle =>
                exact congrArg some (ofCode_ofHex 4 (by decide) (by omega) rest)
              · have hcode := s.code_lt
                exact congrArg some (ofCode_ofHex 8 (by decide) (by omega) rest)

/-- What is written for a code point between quotes does not begin with the quote. -/
theorem exists_quoted_eq_cons {quote : Symbol} (hquote : quote ∈ quotes) (s : Symbol) :
    ∃ x rest, quoted quote s = x :: rest ∧ x ≠ quote := by
  have hback : ∀ q ∈ quotes, Symbol.char '\\' ≠ q := by decide
  unfold quoted
  split
  · exact ⟨_, _, rfl, hback quote hquote⟩
  · next h =>
    split
    · exact ⟨_, _, rfl, hback quote hquote⟩
    · split
      · exact ⟨_, _, rfl, hback quote hquote⟩
      · split
        · exact ⟨_, _, rfl, hback quote hquote⟩
        · split
          · refine ⟨_, _, rfl, ?_⟩
            rintro rfl
            exact h (by simp)
          · split
            · exact ⟨_, _, rfl, hback quote hquote⟩
            · split
              · exact ⟨_, _, rfl, hback quote hquote⟩
              · exact ⟨_, _, rfl, hback quote hquote⟩

/-- Code points between quotes are told apart up to the closing quote. -/
theorem isDelimited_quoted {quote : Symbol} (hquote : quote ∈ quotes) :
    Text.IsDelimited (quoted quote) quote where
  apart := Text.IsPrefixFree.of_read (readQuoted?_quoted hquote)
  begins := exists_quoted_eq_cons hquote

/-- What is written for a code point between quotes is printable. -/
theorem isPrintable_quoted {quote : Symbol} (hquote : quote ∈ quotes) (s : Symbol) :
    (quoted quote s).IsPrintable := by
  have hself : ∀ x ∈ .char '\\' :: quotes, x.isPrintable = true := by decide +kernel
  have hletters : ∀ t ∈ (["\\n", "\\r", "\\t", "\\x", "\\u", "\\U"] : List String),
      (Text.ofString t).IsPrintable := by decide +kernel
  unfold quoted
  split
  · next h =>
    have hs : s.isPrintable = true := by
      rw [Bool.or_eq_true, decide_eq_true_eq, decide_eq_true_eq] at h
      obtain rfl | rfl := h
      · exact hself _ (List.mem_cons_of_mem _ hquote)
      · exact hself _ List.mem_cons_self
    simp only [Text.isPrintable_cons, hself _ List.mem_cons_self, hs, Text.isPrintable_nil, and_self]
  · split
    · exact hletters _ (by decide)
    · split
      · exact hletters _ (by decide)
      · split
        · exact hletters _ (by decide)
        · split
          · next hprintable => exact Text.isPrintable_cons.mpr ⟨hprintable, Text.isPrintable_nil⟩
          · split
            · exact Text.isPrintable_append.mpr ⟨hletters _ (by decide), Text.isPrintable_hex _ _⟩
            · split
              · exact Text.isPrintable_append.mpr ⟨hletters _ (by decide), Text.isPrintable_hex _ _⟩
              · exact Text.isPrintable_append.mpr ⟨hletters _ (by decide), Text.isPrintable_hex _ _⟩

end Symbol

/-! ## Quoted texts -/

namespace Text

/-- A text is put between quotes of one of two sorts. -/
theorem quoteFor_mem (t : Text) : quoteFor t ∈ Symbol.quotes := by
  unfold quoteFor
  split
  · decide
  · decide

/-- A quoted text is told apart from others, whatever is written behind it: the first symbol is the
quote, and the quote marks the end. -/
theorem isPrefixFree_quoted : IsPrefixFree quoted := by
  have hshape (t u : Text) : t.quoted ++ u =
      quoteFor t :: (t.flatMap (Symbol.quoted (quoteFor t)) ++ quoteFor t :: u) := by
    simp only [quoted, List.cons_append, List.append_assoc, List.nil_append]
  intro t t' u u' heq
  rw [hshape, hshape] at heq
  obtain ⟨hquote, hrest⟩ := List.cons.inj heq
  rw [← hquote] at hrest
  exact (Symbol.isDelimited_quoted (quoteFor_mem t)).flatMap_append_cons_inj hrest

/-- A quoted text is printable, whatever stands between the quotes. -/
@[simp] theorem isPrintable_quoted (t : Text) : t.quoted.IsPrintable := by
  have hquotes : ∀ q ∈ Symbol.quotes, q.isPrintable = true := by decide +kernel
  have hquote := hquotes _ (quoteFor_mem t)
  refine isPrintable_append.mpr ⟨isPrintable_cons.mpr ⟨hquote, ?_⟩,
    isPrintable_cons.mpr ⟨hquote, isPrintable_nil⟩⟩
  exact isPrintable_flatMap fun s _ => Symbol.isPrintable_quoted (quoteFor_mem t) s

end Text

end PushButton
