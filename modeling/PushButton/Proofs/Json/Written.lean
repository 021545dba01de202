import Mathlib.Tactic.Common
import PushButton.Proofs.Json.Fields
import PushButton.Proofs.Json.Numeral
import PushButton.Proofs.Json.Quoted

/-!
# What is written is read back

The writer and the reader of JSON agree: a value is read back from its text in every layout that
leaves code points as they are, whatever follows the text. Floating-point numbers are left out, and
so are integers that the reader refuses for their size, objects in which a key occurs twice, and
values that are nested more deeply than the reader goes.
-/

namespace PushButton

namespace Json

/-! ## Layout -/

/-- White space in front of a text is skipped. -/
theorem skipBlank_append {blank : Text} (h : ∀ s ∈ blank, s.isJsonBlank = true) (t : Text) :
    skipBlank (blank ++ t) = skipBlank t := by
  induction blank with
  | nil => rfl
  | cons s rest ih =>
    have hs := h s (by simp)
    rw [List.cons_append, skipBlank, List.dropWhile_cons, if_pos hs]
    exact ih fun x hx => h x (by simp [hx])

/-- Nothing is skipped in front of what is no white space. -/
theorem skipBlank_cons {s : Symbol} (h : s.isJsonBlank = false) (t : Text) :
    skipBlank (s :: t) = s :: t := by
  rw [skipBlank, List.dropWhile_cons, if_neg (by simp [h])]

/-- The beginning of a line is white space. -/
theorem isJsonBlank_of_mem_break {l : Layout} {depth : Nat} {s : Symbol} (h : s ∈ l.break depth) :
    s.isJsonBlank = true := by
  rw [Layout.break] at h
  split at h
  · simp at h
  · rcases List.mem_cons.mp h with rfl | h
    · rfl
    · rw [List.eq_of_mem_replicate h]
      rfl

/-- What stands between two items is a comma and white space. -/
theorem between_eq_cons (l : Layout) (depth : Nat) :
    ∃ blank, l.between depth = .char ',' :: blank ∧ ∀ s ∈ blank, s.isJsonBlank = true := by
  rw [Layout.between]
  split
  · exact ⟨[.char ' '], rfl, by decide⟩
  · exact ⟨l.break depth, rfl, fun s => isJsonBlank_of_mem_break⟩

/-- No number goes on in what begins with a symbol of the layout. -/
theorem endsNumber_cons {s : Symbol} (h : s.isJsonBlank = true ∨ s ∈ ([.char ',', .char ']',
    .char '\x7d'] : Text)) (t : Text) : EndsNumber (s :: t) := by
  intro x hx
  cases hx
  rcases h with h | h
  · simp only [Symbol.isJsonBlank, Bool.or_eq_true, decide_eq_true_eq] at h
    rcases h with ((rfl | rfl) | rfl) | rfl <;> decide
  · simp only [List.mem_cons, List.not_mem_nil, or_false] at h
    rcases h with rfl | rfl | rfl <;> decide

/-- No number goes on in white space that a closing bracket or brace follows. -/
theorem endsNumber_break {l : Layout} {depth : Nat} {s : Symbol}
    (h : s ∈ ([.char ',', .char ']', .char '\x7d'] : Text)) (t : Text) :
    EndsNumber (l.break depth ++ s :: t) := by
  cases hblank : l.break depth with
  | nil => exact endsNumber_cons (Or.inr h) t
  | cons b more =>
    have hb : b ∈ l.break depth := by simp [hblank]
    exact endsNumber_cons (Or.inl (isJsonBlank_of_mem_break hb)) _

/-! ## Values -/

/-- A value that is read back exactly where there is room for some levels of nesting: there is no
floating-point number in it, no integer with too many digits, and no object in which a key occurs
twice. -/
inductive IsExact : Nat → Json → Prop
  | null {room : Nat} : IsExact room .null
  | bool {room : Nat} (b : Bool) : IsExact room (.bool b)
  | int {room : Nat} {n : Int} :
      (Text.ofNat n.natAbs).length ≤ Text.maxDigits → IsExact room (.int n)
  | text {room : Nat} (t : Text) : IsExact room (.text t)
  | array {room : Nat} {items : List Json} :
      (∀ v ∈ items, IsExact room v) → IsExact (room + 1) (.array items)
  | object {room : Nat} {fields : List (Text × Json)} : (keys fields).Nodup →
      (∀ f ∈ fields, IsExact room f.2) → IsExact (room + 1) (.object fields)

/-- A value is read back from its text in a layout, at every depth and in front of everything that
ends a number. -/
def IsReadBack (l : Layout) (room : Nat) (v : Json) : Prop :=
  ∀ (depth fuel : Nat) (rest : Text), (writeAt l depth v).length ≤ fuel → EndsNumber rest →
    readValue room fuel (writeAt l depth v ++ rest) = .ok (v, rest)

/-- A word cannot begin with another symbol than its first. -/
theorem after?_eq_none {s : Symbol} {c : Char} (h : s ≠ .char c) (t word : Text) :
    Text.after? (s :: t) (.char c :: word) = none := by
  have hbeq : (Symbol.char c == s) = false := by simpa using Ne.symm h
  simp [Text.after?, List.isPrefixOf, hbeq]

/-- The numeral of an integer begins with a digit, or with a sign and a digit. -/
theorem ofInt_eq_cons (n : Int) : ∃ (c : Char) (t : Text), c.isDigit = true ∧
    (Text.ofInt n = .char c :: t ∨ Text.ofInt n = .char '-' :: .char c :: t) := by
  have hdigits (m : Nat) : ∃ (c : Char) (t : Text), c.isDigit = true ∧
      Text.ofNat m = .char c :: t := by
    obtain ⟨c, cs, hcs, -⟩ := Text.ofNat_eq_cons m
    refine ⟨c, cs.map .char, ?_, by rw [Text.ofNat, hcs]; rfl⟩
    exact Nat.isDigit_of_mem_toDigits (b := 10) (n := m) (by decide) (by decide) (by simp [hcs])
  cases n with
  | ofNat m =>
    obtain ⟨c, t, hc, ht⟩ := hdigits m
    exact ⟨c, t, hc, Or.inl ht⟩
  | negSucc m =>
    obtain ⟨c, t, hc, ht⟩ := hdigits (m + 1)
    exact ⟨c, t, hc, Or.inr (by rw [Text.ofInt, ht])⟩

/-- A numeral is no word. -/
theorem readWord_ofInt (n : Int) (rest : Text) : readWord (Text.ofInt n ++ rest) = none := by
  have hdigit {c d : Char} (hc : c.isDigit = true) (hd : d.isDigit = false) :
      Symbol.char c ≠ .char d := by
    intro h
    rw [Symbol.char.inj h, hd] at hc
    exact Bool.false_ne_true hc
  have hwords : ∀ t : Text, (∀ word ∈ (["null", "true", "false", "NaN", "Infinity", "-Infinity"] :
      List Text), t.after? word = none) → readWord t = none := by
    intro t h
    simp only [List.mem_cons, List.not_mem_nil, or_false, forall_eq_or_imp, forall_eq] at h
    simp [readWord, h]
  apply hwords
  obtain ⟨c, t, hc, ht | ht⟩ := ofInt_eq_cons n
  · rw [ht]
    intro word hword
    simp only [List.mem_cons, List.not_mem_nil, or_false] at hword
    rcases hword with rfl | rfl | rfl | rfl | rfl | rfl <;>
      exact after?_eq_none (hdigit hc (by decide)) _ _
  · rw [ht]
    intro word hword
    simp only [List.mem_cons, List.not_mem_nil, or_false] at hword
    rcases hword with rfl | rfl | rfl | rfl | rfl | rfl
    iterate 5
      · exact after?_eq_none (by decide) _ _
    · have hbeq : (Symbol.char 'I' == .char c) = false := by
        simpa using (hdigit hc (by decide)).symm
      simp [Text.after?, Text.ofString, List.isPrefixOf, hbeq]

/-- A numeral begins neither with white space nor with a closing bracket. -/
theorem ofInt_first (n : Int) :
    ∃ s t, Text.ofInt n = s :: t ∧ s.isJsonBlank = false ∧ s ≠ .char ']' := by
  have hdigit {c : Char} (hc : c.isDigit = true) :
      (Symbol.char c).isJsonBlank = false ∧ Symbol.char c ≠ .char ']' := by
    have hne {d : Char} (hd : d.isDigit = false) : c ≠ d := by
      intro h
      rw [h, hd] at hc
      exact Bool.false_ne_true hc
    constructor
    · simp [Symbol.isJsonBlank, hne (d := ' ') (by decide), hne (d := '\t') (by decide),
        hne (d := '\n') (by decide), hne (d := '\r') (by decide)]
    · simpa using hne (d := ']') (by decide)
  obtain ⟨c, t, hc, ht | ht⟩ := ofInt_eq_cons n
  · exact ⟨.char c, t, ht, (hdigit hc).1, (hdigit hc).2⟩
  · exact ⟨.char '-', _, ht, by decide, by decide⟩

/-- The text of a value begins neither with white space nor with a closing bracket. -/
theorem writeAt_eq_cons {room : Nat} {v : Json} (hv : v.IsExact room) (l : Layout) (depth : Nat) :
    ∃ s t, writeAt l depth v = s :: t ∧ s.isJsonBlank = false ∧ s ≠ .char ']' := by
  cases hv with
  | null => exact ⟨.char 'n', _, rfl, by decide, by decide⟩
  | bool b =>
    cases b
    · exact ⟨.char 'f', _, rfl, by decide, by decide⟩
    · exact ⟨.char 't', _, rfl, by decide, by decide⟩
  | @int _ n _ => exact ofInt_first n
  | text t => exact ⟨.char '"', _, rfl, by decide, by decide⟩
  | @array _ items _ =>
    cases items with
    | nil => exact ⟨.char '[', _, rfl, by decide, by decide⟩
    | cons item rest =>
      rw [writeAt.eq_8]
      exact ⟨.char '[', _, rfl, by decide, by decide⟩
  | @object _ fields _ _ =>
    cases fields with
    | nil => exact ⟨.char '\x7b', _, rfl, by decide, by decide⟩
    | cons f rest =>
      rw [writeAt]
      exact ⟨.char '\x7b', _, rfl, by decide, by decide⟩

/-- Items are read back from the first one on, with what closes them. Each item uses up one unit of
the bound, which is at most one of the symbols of its text. -/
theorem readItems_write {l : Layout} {room : Nat} {item : Json} {items : List Json}
    (hexact : ∀ v ∈ item :: items, v.IsExact room)
    (hread : ∀ v ∈ item :: items, IsReadBack l room v)
    {depth fuel : Nat} {closing rest : Text} (hclosing : skipBlank closing = .char ']' :: rest)
    (hends : EndsNumber closing)
    (hfuel : (writeAt l (depth + 1) item).length + (writeItems l depth items).length < fuel) :
    readItems room fuel (writeAt l (depth + 1) item ++ (writeItems l depth items ++ closing)) =
      .ok (item :: items, rest) := by
  induction items generalizing item fuel with
  | nil =>
    obtain ⟨fuel, rfl⟩ : ∃ f, fuel = f + 1 := ⟨fuel - 1, by omega⟩
    have hvalue := hread item (by simp) (depth + 1) fuel closing (by omega) hends
    simp only [readItems, writeItems, List.nil_append, hvalue, hclosing]
  | cons next items ih =>
    obtain ⟨fuel, rfl⟩ : ∃ f, fuel = f + 1 := ⟨fuel - 1, by omega⟩
    obtain ⟨blank, hbetween, hblank⟩ := between_eq_cons l depth
    obtain ⟨s, t, hnext, hs, -⟩ := writeAt_eq_cons (hexact next (by simp)) l (depth + 1)
    simp only [writeItems, hbetween, List.cons_append, List.append_assoc, List.length_cons,
      List.length_append] at hfuel ⊢
    have hitems := @ih next (fun v hv => hexact v (by simp [List.mem_cons.mp hv]))
      (fun v hv => hread v (by simp [List.mem_cons.mp hv])) fuel (by omega)
    generalize hmore : writeAt l (depth + 1) next ++ (writeItems l depth items ++ closing) = more
      at hitems ⊢
    have hvalue := hread item (by simp) (depth + 1) fuel (.char ',' :: (blank ++ more)) (by omega)
      (endsNumber_cons (by decide) _)
    have hskip : skipBlank (blank ++ more) = more := by
      rw [skipBlank_append hblank, ← hmore, hnext]
      exact skipBlank_cons hs _
    have hcomma := skipBlank_cons (s := .char ',') (by decide) (blank ++ more)
    simp only [readItems, hvalue, hcomma, hskip, hitems]
    rfl

/-- Behind the quotation mark in front of its name, a field is the name, a colon and the value, with
one blank between. -/
theorem field_eq {l : Layout} (hfull : l.charset = .full) (name : Text) {room : Nat} {value : Json}
    (hvalue : value.IsExact room) (depth : Nat) (more : Text) :
    quoted l.charset name ++ (": " ++ (writeAt l depth value ++ more)) =
        .char '"' :: (name.flatMap (escaped .full) ++ .char '"' ::
          .char ':' :: .char ' ' :: (writeAt l depth value ++ more)) ∧
      skipBlank (.char ' ' :: (writeAt l depth value ++ more)) = writeAt l depth value ++ more := by
  obtain ⟨s, t, hfirst, hs, -⟩ := writeAt_eq_cons hvalue l depth
  have hblank : ∀ s ∈ ([.char ' '] : Text), s.isJsonBlank = true := by decide
  constructor
  · simp [hfull, quoted, Text.ofString]
  · rw [hfirst]
    exact (skipBlank_append hblank _).trans (skipBlank_cons hs _)

/-- A field is read back when its value is, and so are the fields behind a comma after it. -/
theorem readFields_field {l : Layout} (hfull : l.charset = .full) (name : Text) {room : Nat}
    {value : Json} (hexact : value.IsExact room) {depth fuel : Nat} {more rest : Text}
    (hvalue : readValue room fuel (writeAt l depth value ++ more) = .ok (value, more)) :
    (skipBlank more = .char '\x7d' :: rest →
      readFields room (fuel + 1)
          (quoted l.charset name ++ (": " ++ (writeAt l depth value ++ more))) =
        .ok ([(name, value)], rest)) ∧
    ∀ {fields later}, skipBlank more = .char ',' :: rest →
      readFields room fuel (skipBlank rest) = .ok (fields, later) →
      readFields room (fuel + 1)
          (quoted l.charset name ++ (": " ++ (writeAt l depth value ++ more))) =
        .ok ((name, value) :: fields, later) := by
  obtain ⟨hsplit, hskip⟩ := field_eq hfull name hexact depth more
  have hcolon := skipBlank_cons (s := .char ':') (by decide)
    (.char ' ' :: (writeAt l depth value ++ more))
  constructor
  · intro hclosing
    simp only [hsplit, readFields, readQuoted_flatMap, hcolon, hskip, hvalue, hclosing]
  · intro fields later hcomma hfields
    simp only [hsplit, readFields, readQuoted_flatMap, hcolon, hskip, hvalue, hcomma, hfields]
    rfl

/-- Fields are read back from the first one on, with what closes them. -/
theorem readFields_write {l : Layout} (hfull : l.charset = .full) {room : Nat} {name : Text}
    {value : Json} {fields : List (Text × Json)}
    (hexact : ∀ f ∈ (name, value) :: fields, f.2.IsExact room)
    (hread : ∀ f ∈ (name, value) :: fields, IsReadBack l room f.2) {depth fuel : Nat}
    {closing rest : Text} (hclosing : skipBlank closing = .char '\x7d' :: rest)
    (hends : EndsNumber closing)
    (hfuel : (writeAt l (depth + 1) value).length + (writeFields l depth fields).length < fuel) :
    readFields room fuel (quoted l.charset name ++ (": " ++ (writeAt l (depth + 1) value ++
      (writeFields l depth fields ++ closing)))) = .ok ((name, value) :: fields, rest) := by
  induction fields generalizing name value fuel with
  | nil =>
    obtain ⟨fuel, rfl⟩ : ∃ f, fuel = f + 1 := ⟨fuel - 1, by omega⟩
    have hvalue := hread (name, value) (by simp) (depth + 1) fuel closing (by dsimp only; omega)
      hends
    rw [writeFields, List.nil_append]
    exact (readFields_field hfull name (hexact (name, value) (by simp)) hvalue).1 hclosing
  | cons next fields ih =>
    obtain ⟨fuel, rfl⟩ : ∃ f, fuel = f + 1 := ⟨fuel - 1, by omega⟩
    obtain ⟨nextName, nextValue⟩ := next
    obtain ⟨blank, hbetween, hblank⟩ := between_eq_cons l depth
    simp only [writeFields, hbetween, List.cons_append, List.append_assoc, List.length_cons,
      List.length_append] at hfuel ⊢
    have hfields := @ih nextName nextValue (fun f hf => hexact f (by simp [List.mem_cons.mp hf]))
      (fun f hf => hread f (by simp [List.mem_cons.mp hf])) fuel (by omega)
    generalize hmore : quoted l.charset nextName ++ (": " ++ (writeAt l (depth + 1) nextValue ++
      (writeFields l depth fields ++ closing))) = more at hfields ⊢
    have hvalue := hread (name, value) (by simp) (depth + 1) fuel (.char ',' :: (blank ++ more))
      (by dsimp only; omega) (endsNumber_cons (by decide) _)
    have hskip : skipBlank (blank ++ more) = more := by
      rw [skipBlank_append hblank, ← hmore]
      exact skipBlank_cons (by decide) _
    have hcomma := skipBlank_cons (s := .char ',') (by decide) (blank ++ more)
    rw [← hskip] at hfields
    exact (readFields_field hfull name (hexact (name, value) (by simp)) hvalue).2 hcomma hfields

/-- The bound that a value is read with is no zero, since its text is not empty. -/
theorem IsReadBack.of_succ {l : Layout} {room : Nat} {v : Json} (hv : v.IsExact room)
    (h : ∀ (depth fuel : Nat) (rest : Text), (writeAt l depth v).length ≤ fuel + 1 →
      EndsNumber rest → readValue room (fuel + 1) (writeAt l depth v ++ rest) = .ok (v, rest)) :
    IsReadBack l room v := by
  intro depth fuel rest hfuel hrest
  obtain ⟨s, t, hfirst, -⟩ := writeAt_eq_cons hv l depth
  obtain ⟨fuel, rfl⟩ : ∃ f, fuel = f + 1 := by
    rw [hfirst, List.length_cons] at hfuel
    exact ⟨fuel - 1, by omega⟩
  exact h depth fuel rest hfuel hrest

/-- A numeral is read as a number. -/
theorem readValue_ofInt (n : Int) (room fuel : Nat) (rest : Text) :
    readValue room (fuel + 1) (Text.ofInt n ++ rest) = readNumber (Text.ofInt n ++ rest) := by
  have hfirst : ∀ s ∈ ([.char '"', .char '[', .char '\x7b'] : Text), ∀ more,
      Text.ofInt n ++ rest = s :: more → False := by
    intro s hs more h
    obtain ⟨c, t, hc, ht | ht⟩ := ofInt_eq_cons n
    · rw [ht] at h
      have hcs := (List.cons.inj h).1
      simp only [List.mem_cons, List.not_mem_nil, or_false] at hs
      rcases hs with rfl | rfl | rfl <;> (rw [Symbol.char.inj hcs] at hc; revert hc; decide)
    · rw [ht] at h
      have hcs := (List.cons.inj h).1
      simp only [List.mem_cons, List.not_mem_nil, or_false] at hs
      rcases hs with rfl | rfl | rfl <;> (revert hcs; decide)
  rw [readValue.eq_5 _ _ _ (hfirst _ (by simp)) (hfirst _ (by simp)) (hfirst _ (by simp)),
    readWord_ofInt]

/-- A list is read back when its items are. -/
theorem isReadBack_array {l : Layout} {room : Nat} {items : List Json}
    (hexact : ∀ v ∈ items, v.IsExact room) (hread : ∀ v ∈ items, IsReadBack l room v) :
    IsReadBack l (room + 1) (.array items) := by
  refine .of_succ (.array hexact) fun depth fuel rest hfuel _ => ?_
  cases items with
  | nil => rfl
  | cons item items =>
    obtain ⟨s, t, hfirst, hs, hclose⟩ := writeAt_eq_cons (hexact item (by simp)) l (depth + 1)
    have hskip : skipBlank (l.break (depth - 1) ++ .char ']' :: rest) = .char ']' :: rest := by
      rw [skipBlank_append fun s => isJsonBlank_of_mem_break]
      exact skipBlank_cons (by decide) rest
    have hlength : (writeAt l (depth + 1) item).length + (writeItems l depth items).length <
        fuel := by
      simp only [writeAt.eq_8, Text.ofString, List.length_append, List.length_map] at hfuel
      simp at hfuel
      omega
    have hitems := readItems_write hexact hread hskip (endsNumber_break (by decide) rest) hlength
    have hsplit : writeAt l depth (.array (item :: items)) ++ rest =
        .char '[' :: (l.break depth ++ (writeAt l (depth + 1) item ++
          (writeItems l depth items ++ (l.break (depth - 1) ++ .char ']' :: rest)))) := by
      simp [writeAt, Text.ofString]
    rw [hsplit, readValue, if_neg (Nat.succ_ne_zero room), Nat.add_sub_cancel,
      skipBlank_append fun s => isJsonBlank_of_mem_break]
    generalize writeItems l depth items ++ (l.break (depth - 1) ++ .char ']' :: rest) = more
      at hitems ⊢
    rw [hfirst] at hitems ⊢
    rw [List.cons_append, skipBlank_cons hs]
    rw [List.cons_append] at hitems
    split
    · next h => exact absurd (List.cons.inj h).1 hclose
    · rw [hitems]
      rfl

/-- An object is read back when the values of its fields are. -/
theorem isReadBack_object {l : Layout} (hfull : l.charset = .full) {room : Nat}
    {fields : List (Text × Json)} (hkeys : (keys fields).Nodup)
    (hexact : ∀ f ∈ fields, f.2.IsExact room) (hread : ∀ f ∈ fields, IsReadBack l room f.2) :
    IsReadBack l (room + 1) (.object fields) := by
  refine .of_succ (.object hkeys hexact) fun depth fuel rest hfuel _ => ?_
  cases fields with
  | nil => rfl
  | cons f fields =>
    obtain ⟨name, value⟩ := f
    have hskip : skipBlank (l.break (depth - 1) ++ .char '\x7d' :: rest) =
        .char '\x7d' :: rest := by
      rw [skipBlank_append fun s => isJsonBlank_of_mem_break]
      exact skipBlank_cons (by decide) rest
    have hlength : (writeAt l (depth + 1) value).length + (writeFields l depth fields).length <
        fuel := by
      simp only [writeAt, Text.ofString, List.length_append, List.length_map] at hfuel
      simp at hfuel
      omega
    have hfields := readFields_write hfull hexact hread hskip (endsNumber_break (by decide) rest)
      hlength
    have hsplit : writeAt l depth (.object ((name, value) :: fields)) ++ rest =
        .char '\x7b' :: (l.break depth ++ (quoted l.charset name ++ ((": " : Text) ++
          (writeAt l (depth + 1) value ++ (writeFields l depth fields ++
            (l.break (depth - 1) ++ .char '\x7d' :: rest)))))) := by
      simp [writeAt, Text.ofString]
    rw [hsplit, readValue, if_neg (Nat.succ_ne_zero room), Nat.add_sub_cancel,
      skipBlank_append fun s => isJsonBlank_of_mem_break]
    generalize writeAt l (depth + 1) value ++ (writeFields l depth fields ++
      (l.break (depth - 1) ++ .char '\x7d' :: rest)) = more at hfields ⊢
    rw [quoted, List.cons_append] at hfields ⊢
    rw [List.cons_append, skipBlank_cons (by decide)]
    rw [List.cons_append] at hfields
    split
    · next h => exact absurd (List.cons.inj h).1 (by decide)
    · rw [hfields]
      simp only [Except.map, collect_of_nodup hkeys]

/-- Exact values are read back. The induction is on why a value is exact; lists and objects are read
back because their parts are. -/
theorem IsExact.isReadBack {l : Layout} (hfull : l.charset = .full) {room : Nat} {v : Json}
    (hv : v.IsExact room) : IsReadBack l room v := by
  induction hv with
  | null => exact .of_succ .null fun _ _ _ _ _ => rfl
  | bool b => exact .of_succ (.bool b) fun _ _ _ _ _ => by cases b <;> rfl
  | @int _ n hsize =>
    refine .of_succ (.int hsize) fun depth fuel rest _ hrest => ?_
    rw [writeAt, readValue_ofInt, readNumber_ofInt hsize hrest]
  | text t =>
    refine .of_succ (.text t) fun depth fuel rest _ _ => ?_
    have hsplit : writeAt l depth (.text t) ++ rest =
        .char '"' :: (t.flatMap (escaped .full) ++ .char '"' :: rest) := by
      simp [writeAt, quoted, hfull]
    rw [hsplit, readValue, readQuoted_flatMap]
    rfl
  | array hexact ih => exact isReadBack_array hexact ih
  | object hkeys hexact ih => exact isReadBack_object hfull hkeys hexact ih

/-- No text of a value begins with a byte order mark. -/
theorem writeAt_ne_mark {room : Nat} {v : Json} (hv : v.IsExact room) (l : Layout) (depth : Nat)
    (t : Text) : writeAt l depth v ≠ .char '\ufeff' :: t := by
  intro h
  cases hv with
  | null => simp [writeAt, Text.ofString] at h
  | bool b => cases b <;> simp [writeAt, Text.ofString] at h
  | @int _ n _ =>
    obtain ⟨c, more, hc, ht | ht⟩ := ofInt_eq_cons n
    · rw [writeAt, ht] at h
      have hcs := Symbol.char.inj (List.cons.inj h).1
      rw [hcs] at hc
      exact absurd hc (by decide)
    · rw [writeAt, ht] at h
      exact absurd (List.cons.inj h).1 (by decide)
  | text t => simp [writeAt, quoted] at h
  | @array _ items _ => cases items <;> simp [writeAt, Text.ofString] at h
  | @object _ fields _ _ => cases fields <;> simp [writeAt, Text.ofString] at h

/-- **What is written is read back.** The text of an exact value, on one line or indented, holds
that value. -/
theorem parse_write {l : Layout} (hfull : l.charset = .full) {v : Json} (hv : v.IsExact maxDepth) :
    parse (write l v) = .ok v := by
  obtain ⟨s, t, hfirst, hs, -⟩ := writeAt_eq_cons hv l 1
  have hskip : skipBlank (write l v) = write l v := by
    rw [write, hfirst]
    exact skipBlank_cons hs t
  have hread := hv.isReadBack hfull 1 (2 * (write l v).length + 2) []
    (by rw [write]; omega) (by simp [EndsNumber])
  rw [List.append_nil] at hread
  have htext : readText (write l v) = .ok v := by
    rw [readText.eq_2 (write l v) (writeAt_ne_mark hv l 1), hskip]
    simp only [write] at hread ⊢
    rw [hread]
    rfl
  rw [parse, htext]
  rfl

end Json

end PushButton
