import PushButton.Proofs.Bytes.Utf8
import PushButton.Text.Blank
import PushButton.Text.Controls
import PushButton.Text.Quoted

/-!
# Plain texts

Texts in which no half of a surrogate pair stands alone can be printed. Numbers are written in such
texts, and so is every quoted text, whatever stands between the quotes. Leaving control sequences
out adds nothing to a text, and it never takes the end of a line away.
-/

namespace PushButton

/-- No range of printable code points reaches the halves of surrogate pairs. -/
theorem Symbol.isChar_of_isPrintable {s : Symbol} (h : s.isPrintable = true) : s.isChar = true := by
  have hranges : ∀ r ∈ printableRanges, r.2 < 0xD800 ∨ 0xDFFF < r.1 := by decide +kernel
  cases s with
  | char c => rfl
  | lone i =>
    have hcode : (Symbol.lone i).code = 0xD800 + i.val := rfl
    unfold isPrintable at h
    revert h hranges
    generalize printableRanges = ranges
    intro hranges h
    induction ranges with
    | nil => cases h
    | cons r rest ih =>
      obtain ⟨low, high⟩ := r
      have hout := hranges (low, high) (by simp)
      dsimp only at hout
      unfold inRanges at h
      split at h
      · cases h
      · rw [Bool.or_eq_true, decide_eq_true_eq] at h
        obtain hhigh | hrest := h
        · omega
        · exact ih (fun r hr => hranges r (by simp [hr])) hrest

namespace Text

/-- The empty text is plain. -/
@[simp] theorem isPlain_nil : IsPlain [] := nofun

/-- A text is plain when its symbols are characters. -/
@[simp] theorem isPlain_cons {s : Symbol} {t : Text} :
    IsPlain (s :: t) ↔ s.isChar = true ∧ t.IsPlain := List.forall_mem_cons

/-- A text is plain when both of its parts are. -/
@[simp] theorem isPlain_append {t u : Text} : IsPlain (t ++ u) ↔ t.IsPlain ∧ u.IsPlain :=
  List.forall_mem_append

attribute [simp] isPlain_ofString

/-- Characters make a plain text. -/
theorem isPlain_map_char (cs : List Char) : IsPlain (cs.map .char) := by
  intro s hs
  obtain ⟨c, -, rfl⟩ := List.mem_map.mp hs
  rfl

/-- A number of plain symbols makes a plain text. -/
theorem isPlain_replicate (n : Nat) (c : Char) : IsPlain (List.replicate n (.char c)) := by
  intro s hs
  rw [List.eq_of_mem_replicate hs]
  rfl

/-- A text that is put together from plain parts is plain. -/
theorem isPlain_flatten {ts : List Text} (h : ∀ t ∈ ts, t.IsPlain) : IsPlain ts.flatten := by
  intro s hs
  obtain ⟨t, ht, hst⟩ := List.mem_flatten.mp hs
  exact h t ht s hst

/-- Plain texts are joined by plain separators to a plain text. -/
theorem isPlain_join {sep : Text} {ts : List Text} (hsep : sep.IsPlain)
    (h : ∀ t ∈ ts, t.IsPlain) : IsPlain (join sep ts) := by
  refine isPlain_flatten ?_
  induction ts with
  | nil => nofun
  | cons t rest ih =>
    have hrest := ih fun u hu => h u (by simp [hu])
    cases rest with
    | nil => exact h
    | cons u rest => exact List.forall_mem_cons.mpr ⟨h t (by simp), List.forall_mem_cons.mpr
        ⟨hsep, hrest⟩⟩

/-! ## Numbers -/

/-- A number is written in a plain text. -/
@[simp] theorem isPlain_ofNat (n : Nat) : (ofNat n).IsPlain := isPlain_map_char _

/-- An integer is written in a plain text. -/
@[simp] theorem isPlain_ofInt (n : Int) : (ofInt n).IsPlain := by
  cases n with
  | ofNat n => exact isPlain_ofNat n
  | negSucc n => exact isPlain_cons.mpr ⟨rfl, isPlain_ofNat _⟩

/-- Hexadecimal digits make a plain text. -/
@[simp] theorem isPlain_hex (width n : Nat) : (hex width n).IsPlain :=
  isPlain_append.mpr ⟨isPlain_replicate _ _, isPlain_map_char _⟩

/-! ## Quoted texts -/

/-- A code point is written between quotes in a plain text. -/
theorem isPlain_quotedSymbol (quote : Char) (s : Symbol) :
    IsPlain (Symbol.quoted (.char quote) s) := by
  unfold Symbol.quoted
  split
  · next h =>
    rw [Bool.or_eq_true, decide_eq_true_eq, decide_eq_true_eq] at h
    obtain rfl | rfl := h
    · exact isPlain_map_char ['\\', quote]
    · exact isPlain_map_char ['\\', '\\']
  · split
    · exact isPlain_ofString "\\n"
    · split
      · exact isPlain_ofString "\\r"
      · split
        · exact isPlain_ofString "\\t"
        · split
          · next h => exact isPlain_cons.mpr ⟨Symbol.isChar_of_isPrintable h, isPlain_nil⟩
          · split
            · simp
            · split
              · simp
              · simp

/-- A quoted text is plain, whatever stands between the quotes. -/
@[simp] theorem isPlain_quoted (t : Text) : t.quoted.IsPlain := by
  obtain ⟨quote, hquote⟩ : ∃ c, quoteFor t = .char c := by
    unfold quoteFor
    split
    · exact ⟨_, rfl⟩
    · exact ⟨_, rfl⟩
  unfold quoted
  rw [hquote]
  refine isPlain_append.mpr ⟨isPlain_cons.mpr ⟨rfl, ?_⟩, isPlain_map_char [quote]⟩
  intro s hs
  obtain ⟨x, -, hx⟩ := List.mem_flatMap.mp hs
  exact isPlain_quotedSymbol quote x s hx

/-! ## Control sequences -/

/-- Leaving control sequences out leaves symbols of the text, in order. -/
theorem dropControlsFrom_sublist (skipped : Nat) (t : Text) :
    (dropControlsFrom skipped t).Sublist t := by
  induction t generalizing skipped with
  | nil => exact List.Sublist.refl _
  | cons s rest ih =>
    unfold dropControlsFrom
    split
    · exact (ih _).cons s
    · split
      · exact (ih _).cons s
      · exact (ih 0).cons_cons s

/-- A plain text is plain without its control sequences. -/
theorem IsPlain.dropControls {t : Text} (h : t.IsPlain) : (dropControls t).IsPlain :=
  fun s hs => h s ((dropControlsFrom_sublist 0 t).subset hs)

/-- The parameters of a control sequence with the letter behind them end before the line does. -/
theorem sequenceLength?_le {t : Text} {n : Nat} (h : sequenceLength? (t ++ "\n") = some n) :
    n ≤ t.length := by
  induction t generalizing n with
  | nil =>
    have hnone : sequenceLength? (([] : Text) ++ "\n") = none := by decide
    cases hnone.symm.trans h
  | cons s rest ih =>
    rw [List.cons_append, sequenceLength?] at h
    rw [List.length_cons]
    split at h
    · cases h
      omega
    · split at h
      · obtain ⟨m, hm, rfl⟩ := Option.map_eq_some_iff.mp h
        exact Nat.succ_le_succ (ih hm)
      · cases h

/-- A control sequence ends before the line does. -/
theorem controlLength?_le {t : Text} {n : Nat} (h : controlLength? (t ++ "\n") = some n) :
    n ≤ t.length := by
  cases t with
  | nil =>
    have hnone : controlLength? (([] : Text) ++ "\n") = none := by decide
    cases hnone.symm.trans h
  | cons s rest =>
    rw [List.cons_append, controlLength?] at h
    split at h
    · obtain ⟨m, hm, rfl⟩ := Option.map_eq_some_iff.mp h
      exact Nat.succ_le_succ (sequenceLength?_le hm)
    · cases h

/-- Something is left of a line without its control sequences. The induction is on the line, of
which no more is skipped than it has in front of its end. -/
theorem dropControlsFrom_line_ne_nil {t : Text} {skipped : Nat} (h : skipped ≤ t.length) :
    dropControlsFrom skipped (t ++ "\n") ≠ [] := by
  induction t generalizing skipped with
  | nil =>
    obtain rfl : skipped = 0 := Nat.le_zero.mp h
    decide
  | cons s rest ih =>
    rw [List.cons_append]
    unfold dropControlsFrom
    split
    · exact ih (Nat.le_of_succ_le_succ h)
    · split
      · next n hlength =>
        split at hlength
        · exact ih (controlLength?_le hlength)
        · cases hlength
      · exact List.cons_ne_nil _ _

/-- Something is left of a line without its control sequences. -/
theorem dropControls_line_ne_nil (t : Text) : dropControls (t ++ "\n") ≠ [] :=
  dropControlsFrom_line_ne_nil (Nat.zero_le _)

/-- What stands in front of the first escape character is kept. -/
theorem dropControls_append {t : Text} (ht : .char '\x1b' ∉ t) (u : Text) :
    dropControls (t ++ u) = t ++ dropControls u := by
  induction t with
  | nil => rfl
  | cons s rest ih =>
    rw [List.mem_cons, not_or] at ht
    have hrest : dropControlsFrom 0 (rest ++ u) = rest ++ dropControlsFrom 0 u := ih ht.2
    unfold dropControls
    rw [List.cons_append, dropControlsFrom, if_neg (Ne.symm ht.1), hrest, List.cons_append]

/-! ## Parts -/

/-- A plain text is plain without the white space at its ends. -/
theorem IsPlain.strip {t : Text} (h : t.IsPlain) : t.strip.IsPlain := by
  intro s hs
  have hreversed := (List.dropWhile_sublist _).subset (List.mem_reverse.mp hs)
  exact h s ((List.dropWhile_sublist _).subset (List.mem_reverse.mp hreversed))

/-- A plain text is cut into plain parts. -/
theorem IsPlain.cut? {t a b : Text} {sep : Symbol} (h : t.IsPlain)
    (hcut : t.cut? sep = some (a, b)) : a.IsPlain ∧ b.IsPlain := by
  induction t generalizing a with
  | nil => cases hcut
  | cons s rest ih =>
    obtain ⟨hs, hrest⟩ := isPlain_cons.mp h
    unfold Text.cut? at hcut
    split at hcut
    · cases hcut
      exact ⟨isPlain_nil, hrest⟩
    · obtain ⟨⟨a', b'⟩, hparts, hpair⟩ := Option.map_eq_some_iff.mp hcut
      cases hpair
      obtain ⟨ha, hb⟩ := ih hrest hparts
      exact ⟨isPlain_cons.mpr ⟨hs, ha⟩, hb⟩

end Text

end PushButton
