import PushButton.Proofs.Json.Numeral
import PushButton.Proofs.Json.Quoted
import PushButton.Text.Lines

/-!
# The symbols of a written value

Apart from what the texts in a value bring with them, its text consists of line feeds and printable
ASCII characters. Control characters are escaped. So the text of a value whose texts are plain is
plain, the text of every value is plain where code points above 126 are escaped, and unifying line
endings changes nothing.
-/

namespace PushButton

namespace Text

/-- A text without carriage returns keeps its line endings. -/
theorem unifyLines_of_notMem {t : Text} (h : .char '\r' ∉ t) : unifyLines t = t := by
  induction t with
  | nil => rfl
  | cons s rest ih =>
    have hs : s ≠ .char '\r' := fun hs => h (by simp [hs])
    rw [unifyLines.eq_4 s rest (fun _ hs' _ => hs hs') hs, ih fun hr => h (by simp [hr])]

end Text

namespace Json

variable {P : Symbol → Prop} {Q : Text → Prop}

/-- Every text in a value satisfies a condition, and so does every key. -/
inductive AllTexts (Q : Text → Prop) : Json → Prop
  | null : AllTexts Q .null
  | bool (b : Bool) : AllTexts Q (.bool b)
  | int (n : Int) : AllTexts Q (.int n)
  | float (x : Float) : AllTexts Q (.float x)
  | text {t : Text} : Q t → AllTexts Q (.text t)
  | array {items : List Json} : (∀ v ∈ items, AllTexts Q v) → AllTexts Q (.array items)
  | object {fields : List (Text × Json)} : (∀ f ∈ fields, Q f.1) →
      (∀ f ∈ fields, AllTexts Q f.2) → AllTexts Q (.object fields)

/-- A condition that every text satisfies is satisfied by the texts in every value. -/
theorem AllTexts.of_forall (h : ∀ t, Q t) (v : Json) : AllTexts Q v :=
  match v with
  | .null => .null
  | .bool b => .bool b
  | .int n => .int n
  | .float x => .float x
  | .text t => .text (h t)
  | .array items => .array fun item _ => of_forall h item
  | .object fields => .object (fun f _ => h f.1) fun f _ => of_forall h f.2
termination_by sizeOf v
decreasing_by
  · next hitem =>
    have := List.sizeOf_lt_of_mem hitem
    simp
    omega
  · next hf =>
    have := List.sizeOf_lt_of_mem hf
    obtain ⟨name, value⟩ := f
    simp at this ⊢
    omega

/-- A text between quotes needs nothing but its own symbols: a condition on texts makes every symbol
that is written for them satisfy a condition on symbols. -/
def HoldsOfQuoted (Q : Text → Prop) (charset : Charset) (P : Symbol → Prop) : Prop :=
  ∀ t, Q t → ∀ x ∈ quoted charset t, P x

/-- Printable ASCII characters satisfy a condition. -/
def HoldsOfAscii (P : Symbol → Prop) : Prop :=
  ∀ c : Char, 0x20 ≤ c.toNat → c.toNat < 0x7F → P (.char c)

/-- Line feeds and printable ASCII characters satisfy a condition. -/
def HoldsOfLayout (P : Symbol → Prop) : Prop := P (.char '\n') ∧ HoldsOfAscii P

/-- The layout consists of characters. -/
theorem holdsOfLayout_isChar : HoldsOfLayout fun s => s.isChar = true := ⟨rfl, fun _ _ _ => rfl⟩

/-- A condition that holds of two texts holds of one behind the other. -/
theorem forall_mem_append {a b : Text} (ha : ∀ s ∈ a, P s) (hb : ∀ s ∈ b, P s) :
    ∀ s ∈ a ++ b, P s := by
  intro s hs
  rcases List.mem_append.mp hs with hs | hs
  · exact ha s hs
  · exact hb s hs

/-! ## Numerals -/

/-- A condition that holds of printable ASCII characters holds of a word made of them. -/
theorem HoldsOfAscii.ofString (hP : HoldsOfAscii P) {word : String}
    (hword : (word.toList.all fun c => 0x20 ≤ c.toNat ∧ c.toNat < 0x7F) = true) :
    ∀ s ∈ Text.ofString word, P s := by
  intro s hs
  obtain ⟨c, hc, rfl⟩ := List.mem_map.mp hs
  obtain ⟨hlow, hhigh⟩ := of_decide_eq_true (List.all_eq_true.mp hword c hc)
  exact hP c hlow hhigh

/-- The condition holds of the numerals of natural numbers. -/
theorem HoldsOfAscii.ofNat (hP : HoldsOfAscii P) (n : Nat) : ∀ s ∈ Text.ofNat n, P s := by
  intro s hs
  obtain ⟨c, rfl, hlow, hhigh⟩ := Text.mem_ofNat hs
  exact hP c (by omega) (by omega)

/-- The condition holds of the numerals of integers. -/
theorem HoldsOfAscii.ofInt (hP : HoldsOfAscii P) (n : Int) : ∀ s ∈ Text.ofInt n, P s := by
  cases n with
  | ofNat m => exact hP.ofNat m
  | negSucc m =>
    intro s hs
    rcases List.mem_cons.mp hs with rfl | hs
    · exact hP '-' (by decide) (by decide)
    · exact hP.ofNat (m + 1) s hs

/-- The condition holds of a row of zeros. -/
theorem HoldsOfAscii.zeros (hP : HoldsOfAscii P) (n : Nat) :
    ∀ s ∈ List.replicate n (Symbol.char '0'), P s := by
  intro s hs
  rw [List.eq_of_mem_replicate hs]
  exact hP '0' (by decide) (by decide)

/-- The condition holds of digits around a point. -/
theorem HoldsOfAscii.positional (hP : HoldsOfAscii P) {digits : Text} (h : ∀ s ∈ digits, P s)
    (point : Int) : ∀ s ∈ Decimal.positional digits point, P s := by
  unfold Decimal.positional
  dsimp only
  split
  · exact forall_mem_append (forall_mem_append (hP.ofString (by decide)) (hP.zeros _)) h
  · split
    · exact forall_mem_append (forall_mem_append h (hP.zeros _)) (hP.ofString (by decide))
    · refine forall_mem_append (forall_mem_append ?_ (hP.ofString (by decide))) ?_
      · exact fun s hs => h s (List.mem_of_mem_take hs)
      · exact fun s hs => h s (List.mem_of_mem_drop hs)

/-- The condition holds of digits with an exponent. -/
theorem HoldsOfAscii.exponential (hP : HoldsOfAscii P) {digits : Text} (h : ∀ s ∈ digits, P s)
    (exponent : Int) : ∀ s ∈ Decimal.exponential digits exponent, P s := by
  have hpadded : ∀ s ∈ Text.padded 2 exponent.natAbs, P s :=
    forall_mem_append (hP.zeros _) (hP.ofNat _)
  have hsign : ∀ s ∈ (if exponent < 0 then "e-" else "e+" : Text), P s := by
    split
    · exact hP.ofString (by decide)
    · exact hP.ofString (by decide)
  have hfraction : ∀ s ∈ (if digits.length ≤ 1 then [] else "." ++ digits.drop 1 : Text), P s := by
    split
    · simp
    · exact forall_mem_append (hP.ofString (by decide)) fun s hs => h s (List.mem_of_mem_drop hs)
  exact forall_mem_append (forall_mem_append (forall_mem_append
    (fun s hs => h s (List.mem_of_mem_take hs)) hfraction) hsign) hpadded

/-- The condition holds of floating-point numbers. -/
theorem HoldsOfAscii.number (hP : HoldsOfAscii P) (x : Float) : ∀ s ∈ number x, P s := by
  unfold Json.number
  split
  · next d _ =>
    have hsign : ∀ s ∈ (if d.negative then "-" else "" : Text), P s := by
      split
      · exact hP.ofString (by decide)
      · exact hP.ofString (by decide)
    unfold Decimal.Dyadic.written
    dsimp only
    split
    · exact forall_mem_append hsign (hP.ofString (by decide))
    · split
      · exact forall_mem_append hsign (hP.positional (hP.ofNat _) _)
      · exact forall_mem_append hsign (hP.exponential (hP.ofNat _) _)
  · split
    · exact hP.ofString (by decide)
    · exact hP.ofString (by decide)
  · exact hP.ofString (by decide)

/-- The condition holds of hexadecimal digits. The induction follows the number, which loses its
last digit in each step. -/
theorem HoldsOfAscii.hex (hP : HoldsOfAscii P) (width n : Nat) : ∀ s ∈ Text.hex width n, P s := by
  have hdigit : ∀ d < 0x10, 0x20 ≤ d.digitChar.toNat ∧ d.digitChar.toNat < 0x7F := by decide
  have hdigits : ∀ c ∈ Nat.toDigits 16 n, P (.char c) := by
    induction n using Nat.strongRecOn with
    | _ n ih =>
      intro c hc
      rw [Nat.toDigits_eq_if (by decide)] at hc
      split at hc
      · next hsmall =>
        rw [List.mem_singleton.mp hc]
        exact hP _ (hdigit n hsmall).1 (hdigit n hsmall).2
      · rcases List.mem_append.mp hc with hc | hc
        · exact ih (n / 16) (by omega) c hc
        · have hmod : n % 16 < 0x10 := Nat.mod_lt _ (by decide)
          rw [List.mem_singleton.mp hc]
          exact hP _ (hdigit _ hmod).1 (hdigit _ hmod).2
  refine forall_mem_append (hP.zeros _) ?_
  intro s hs
  obtain ⟨c, hc, rfl⟩ := List.mem_map.mp hs
  exact hdigits c hc

/-! ## Quoted texts -/

/-- The condition holds of an escape with a code. -/
theorem HoldsOfAscii.codeEscape (hP : HoldsOfAscii P) (s : Symbol) :
    ∀ x ∈ codeEscape s, P x := by
  have hunit (n : Nat) : ∀ x ∈ ("\\u" ++ Text.hex 4 n : Text), P x :=
    forall_mem_append (hP.ofString (by decide)) (hP.hex 4 n)
  unfold Json.codeEscape
  dsimp only
  split
  · exact hunit _
  · exact forall_mem_append (hunit _) (hunit _)

/-- The condition holds of the written form of a symbol, if the symbol is escaped or the condition
holds of it. -/
theorem HoldsOfAscii.escaped (hP : HoldsOfAscii P) {charset : Charset} {s : Symbol}
    (hs : 0x20 ≤ s.code → ¬(charset = .ascii ∧ 126 < s.code) → P s) :
    ∀ x ∈ escaped charset s, P x := by
  unfold Json.escaped
  split
  iterate 7
    · exact hP.ofString (by decide)
  · split
    · exact hP.codeEscape s
    · next hcode =>
      split
      · exact hP.codeEscape s
      · next hascii =>
        intro x hx
        rw [List.mem_singleton.mp hx]
        exact hs (by omega) (by simpa using hascii)

/-- The condition holds of a quoted text, if it holds of the symbols that need no escape. -/
theorem HoldsOfAscii.quoted (hP : HoldsOfAscii P) {charset : Charset} {t : Text}
    (ht : ∀ s ∈ t, 0x20 ≤ s.code → ¬(charset = .ascii ∧ 126 < s.code) → P s) :
    ∀ x ∈ quoted charset t, P x := by
  intro x hx
  rw [Json.quoted, List.cons_append] at hx
  rcases List.mem_cons.mp hx with rfl | hx
  · exact hP '"' (by decide) (by decide)
  · rcases List.mem_append.mp hx with hx | hx
    · obtain ⟨s, hs, hx⟩ := List.mem_flatMap.mp hx
      exact hP.escaped (ht s hs) x hx
    · rw [List.mem_singleton.mp hx]
      exact hP '"' (by decide) (by decide)

/-- Where every code point is written as it is, a condition that holds of the symbols of a text
other than control characters holds of what is written for it. -/
theorem HoldsOfAscii.quoted_full (hP : HoldsOfAscii P) :
    HoldsOfQuoted (fun t => ∀ s ∈ t, 0x20 ≤ s.code → P s) .full P := by
  intro t ht
  exact hP.quoted fun s hs hcode _ => ht s hs hcode

/-- A text is plain if it is plain between quotes where every code point is written as it is. -/
theorem isPlain_of_quoted_full {t : Text} (h : (quoted .full t).IsPlain) : t.IsPlain := by
  intro s hs
  cases s with
  | char c => rfl
  | lone i =>
    have hcode : ¬ (Symbol.lone i).code < 0x20 := by
      simp only [Symbol.code]
      omega
    have hescaped : Symbol.lone i ∈ Json.escaped .full (.lone i) := by simp [Json.escaped, hcode]
    refine h _ ?_
    rw [Json.quoted, List.cons_append]
    exact List.mem_cons_of_mem _ (List.mem_append_left _ (List.mem_flatMap.mpr ⟨_, hs, hescaped⟩))

/-- Where code points above 126 are escaped, the condition holds of what is written for every
text. -/
theorem HoldsOfAscii.quoted_ascii (hP : HoldsOfAscii P) :
    HoldsOfQuoted (fun _ => True) .ascii P := by
  intro t _
  refine hP.quoted ?_
  intro s _ hlow hhigh
  have hcode : s.code ≤ 126 := by
    by_contra h
    exact hhigh ⟨rfl, by omega⟩
  cases s with
  | char c => exact hP c hlow (Nat.lt_succ_of_le hcode)
  | lone i =>
    simp only [Symbol.code] at hcode
    omega

/-! ## Values -/

/-- The condition holds of the beginning of a line. -/
theorem HoldsOfLayout.break (hP : HoldsOfLayout P) (l : Layout) (depth : Nat) :
    ∀ s ∈ l.break depth, P s := by
  intro s hs
  rw [Layout.break] at hs
  split at hs
  · simp at hs
  · rcases List.mem_cons.mp hs with rfl | hs
    · exact hP.1
    · rw [List.eq_of_mem_replicate hs]
      exact hP.2 ' ' (by decide) (by decide)

/-- The condition holds of what stands between two items, if it holds of the beginning of a line. -/
theorem HoldsOfAscii.between (hP : HoldsOfAscii P) {l : Layout} {depth : Nat}
    (hbreak : ∀ s ∈ l.break depth, P s) : ∀ s ∈ l.between depth, P s := by
  rw [Layout.between]
  split
  · exact hP.ofString (by decide)
  · exact forall_mem_append (hP.ofString (by decide)) hbreak

/-- **The symbols of a written value.** A condition that holds of printable ASCII characters, of the
beginnings of lines and of what is written for the texts in a value holds of every symbol of its
text. -/
theorem AllTexts.writeAt_of_break (hP : HoldsOfAscii P) {l : Layout}
    (hbreak : ∀ depth, ∀ s ∈ l.break depth, P s) (hq : HoldsOfQuoted Q l.charset P) {v : Json}
    (hv : AllTexts Q v) (depth : Nat) : ∀ s ∈ writeAt l depth v, P s := by
  induction hv generalizing depth with
  | null => exact hP.ofString (by decide)
  | bool b => cases b <;> exact hP.ofString (by decide)
  | int n => exact hP.ofInt n
  | float x => exact hP.number x
  | text ht =>
    rw [Json.writeAt]
    exact hq _ ht
  | @array items _ ih =>
    have hitems : ∀ more ⊆ items, ∀ s ∈ writeItems l depth more, P s := by
      intro more hmore
      induction more with
      | nil => simp [writeItems]
      | cons item more ihMore =>
        rw [writeItems]
        have hitem := ih item (hmore (by simp)) (depth + 1)
        exact forall_mem_append (forall_mem_append (hP.between (hbreak depth)) hitem)
          (ihMore (List.subset_of_cons_subset hmore))
    cases items with
    | nil => exact hP.ofString (by decide)
    | cons item rest =>
      rw [writeAt.eq_8]
      have hitem := ih item (by simp) (depth + 1)
      have hrest := hitems rest (by simp)
      exact forall_mem_append (forall_mem_append (forall_mem_append (forall_mem_append
        (forall_mem_append (hP.ofString (by decide)) (hbreak depth)) hitem) hrest)
          (hbreak (depth - 1))) (hP.ofString (by decide))
  | @object fields hkeys _ ih =>
    have hfields : ∀ more ⊆ fields, ∀ s ∈ writeFields l depth more, P s := by
      intro more hmore
      induction more with
      | nil => simp [writeFields]
      | cons f more ihMore =>
        obtain ⟨name, value⟩ := f
        rw [writeFields]
        have hname := hq _ (hkeys (name, value) (hmore (by simp)))
        have hvalue := ih (name, value) (hmore (by simp)) (depth + 1)
        exact forall_mem_append (forall_mem_append (forall_mem_append (forall_mem_append
          (hP.between (hbreak depth)) hname) (hP.ofString (by decide))) hvalue)
            (ihMore (List.subset_of_cons_subset hmore))
    cases fields with
    | nil => exact hP.ofString (by decide)
    | cons f rest =>
      obtain ⟨name, value⟩ := f
      rw [Json.writeAt]
      have hname := hq _ (hkeys (name, value) (by simp))
      have hvalue := ih (name, value) (by simp) (depth + 1)
      have hrest := hfields rest (by simp)
      exact forall_mem_append (forall_mem_append (forall_mem_append (forall_mem_append
        (forall_mem_append (forall_mem_append (forall_mem_append (hP.ofString (by decide))
          (hbreak depth)) hname) (hP.ofString (by decide))) hvalue) hrest)
            (hbreak (depth - 1))) (hP.ofString (by decide))

/-- A condition that holds of the layout, and of what is written for the texts in a value, holds of
every symbol of its text. -/
theorem AllTexts.writeAt (hP : HoldsOfLayout P) {l : Layout} (hq : HoldsOfQuoted Q l.charset P)
    {v : Json} (hv : AllTexts Q v) (depth : Nat) : ∀ s ∈ Json.writeAt l depth v, P s :=
  hv.writeAt_of_break hP.2 (hP.break l) hq depth

/-- The text of a value with plain texts is plain. -/
theorem AllTexts.isPlain_writeAt {l : Layout} (hfull : l.charset = .full) {v : Json}
    (hv : AllTexts Text.IsPlain v) (depth : Nat) : (Json.writeAt l depth v).IsPlain := by
  refine hv.writeAt holdsOfLayout_isChar ?_ depth
  intro t ht
  rw [hfull]
  exact holdsOfLayout_isChar.2.quoted_full t fun s hs _ => ht s hs

/-- There is no line feed in a value that is written on one line: where one is in a text, it is
escaped. -/
theorem notMem_line (v : Json) : Symbol.char '\n' ∉ v.line := by
  have hascii : HoldsOfAscii (· ≠ .char '\n') := by
    rintro c hlow - ⟨rfl⟩
    exact absurd hlow (by decide)
  have hquoted : HoldsOfQuoted (fun _ => True) .full (· ≠ .char '\n') := by
    intro t _
    refine hascii.quoted_full t ?_
    rintro s - hcode rfl
    exact absurd hcode (by decide)
  have hsymbols := AllTexts.writeAt_of_break hascii (l := {}) (fun _ => nofun) hquoted
    (.of_forall (fun _ => trivial) v) 1
  exact fun h => hsymbols _ h rfl

end Json

end PushButton
