import PushButton.Yaml.Token

/-!
# Going on in a document

What is left of a document behind a scalar, a name or a tag is an end of what was left in front of
it. So nothing is read twice, and what holds of every end of a text holds wherever it is read from.
-/

namespace PushButton

namespace Yaml

namespace Cursor

/-- A place is at or behind another one. -/
def IsBehind (c' c : Cursor) : Prop := c'.rest <:+ c.rest

variable {c c' c'' : Cursor}

@[refl] theorem IsBehind.refl (c : Cursor) : c.IsBehind c := List.suffix_refl c.rest

theorem IsBehind.trans (h : c''.IsBehind c') (h' : c'.IsBehind c) : c''.IsBehind c :=
  List.IsSuffix.trans h h'

/-- One symbol further. -/
theorem isBehind_step (c : Cursor) : c.step.IsBehind c := by
  unfold IsBehind step
  split
  · exact List.suffix_refl c.rest
  · rename_i s rest hrest
    rw [hrest]
    exact List.suffix_cons s rest

/-- A number of symbols further. -/
theorem isBehind_skip (c : Cursor) (n : Nat) : (c.skip n).IsBehind c := by
  induction n generalizing c with
  | zero => rfl
  | succ n ih => exact (ih c.step).trans c.isBehind_step

/-- Behind the symbols that satisfy a test. -/
theorem isBehind_skipWhile (c : Cursor) (p : Symbol → Bool) : (c.skipWhile p).IsBehind c :=
  c.isBehind_skip _

/-- Behind spaces. -/
theorem isBehind_skipSpaces (c : Cursor) : c.skipSpaces.IsBehind c := c.isBehind_skipWhile _

/-- Behind spaces, up to a column. -/
theorem isBehind_skipSpacesTo (column : Nat) (c : Cursor) : (c.skipSpacesTo column).IsBehind c :=
  c.isBehind_skip _

/-- Behind a comment. -/
theorem isBehind_skipComment (c : Cursor) : c.skipComment.IsBehind c := by
  unfold skipComment
  split
  · exact c.isBehind_skipWhile _
  · rfl

/-- Behind a line ending. -/
theorem isBehind_lineBreak {s : Symbol} (h : c.lineBreak? = some (s, c')) : c'.IsBehind c := by
  unfold lineBreak? at h
  split at h
  · cases h
    exact c.isBehind_skip 2
  · split at h
    · cases h
      exact c.isBehind_step
    · split at h
      · cases h
        exact c.isBehind_step
      · cases h
  · cases h

end Cursor

open Cursor

/-! ## Plain scalars and blocks -/

/-- Behind the line endings and spaces between words. -/
theorem isBehind_plainBreaks {fuel : Nat} {c c' : Cursor} {t : Text}
    (h : plainBreaks fuel c = some (t, c')) : c'.IsBehind c := by
  induction fuel generalizing c t with
  | zero =>
    cases h
    rfl
  | succ fuel ih =>
    unfold plainBreaks at h
    split at h
    · exact (ih h).trans c.isBehind_step
    · split at h
      · cases h
        rfl
      · rename_i s next hbreak
        split at h
        · cases h
        · obtain ⟨⟨more, last⟩, hmore, heq⟩ := Option.map_eq_some_iff.mp h
          cases heq
          exact (ih hmore).trans (isBehind_lineBreak hbreak)

/-- Behind the gap after a word. -/
theorem isBehind_plainGap (c : Cursor) : (plainGap c).cursor.IsBehind c := by
  have hspaces := c.isBehind_skipWhile (· = .char ' ')
  unfold plainGap Cursor.takeWhile
  dsimp only
  split
  · exact hspaces
  · rename_i s next hbreak
    have hnext := (isBehind_lineBreak hbreak).trans hspaces
    split
    · exact hnext
    · split
      · exact hnext
      · rename_i hbreaks
        exact (isBehind_plainBreaks hbreaks).trans hnext

/-- Behind the words of a plain scalar. -/
theorem isBehind_plainFrom (inFlow : Bool) (depth fuel : Nat) (c : Cursor) (crossed : Bool) :
    (plainFrom inFlow depth fuel c crossed).2.1.IsBehind c := by
  induction fuel generalizing c crossed with
  | zero => rfl
  | succ fuel ih =>
    have hgap := (isBehind_plainGap (c.skip (plainRun inFlow c.rest))).trans (c.isBehind_skip _)
    unfold plainFrom
    dsimp only
    split
    · rfl
    · split
      · exact hgap
      · exact (ih _ _).trans hgap

/-- Behind the empty lines in front of a block. -/
theorem isBehind_leadingBreaks (fuel deepest : Nat) (c : Cursor) :
    (leadingBreaks fuel deepest c).2.2.IsBehind c := by
  induction fuel generalizing deepest c with
  | zero => rfl
  | succ fuel ih =>
    unfold leadingBreaks
    split
    · exact (ih _ _).trans c.isBehind_step
    · split
      · rfl
      · rename_i hbreak
        exact (ih _ _).trans (isBehind_lineBreak hbreak)

/-- Behind the empty lines between two lines of a block. -/
theorem isBehind_blockBreaks (column fuel : Nat) (c : Cursor) :
    (blockBreaks column fuel c).2.IsBehind c := by
  induction fuel generalizing c with
  | zero => exact isBehind_skipSpacesTo column c
  | succ fuel ih =>
    have hspaces := isBehind_skipSpacesTo column c
    unfold blockBreaks
    dsimp only
    split
    · exact hspaces
    · rename_i hbreak
      exact (ih _).trans ((isBehind_lineBreak hbreak).trans hspaces)

/-- Behind the lines of a block. -/
theorem isBehind_blockLines (isFolded : Bool) (column fuel : Nat) (c : Cursor) :
    (blockLines isFolded column fuel c).2.2.2.IsBehind c := by
  induction fuel generalizing c with
  | zero => rfl
  | succ fuel ih =>
    have hline := c.isBehind_skipWhile fun s => !s.isBreak
    unfold blockLines Cursor.takeWhile
    dsimp only
    split
    · split
      · exact (ih _).trans ((isBehind_blockBreaks _ _ _).trans hline)
      · exact (isBehind_blockBreaks _ _ _).trans hline
    · rename_i hbreak
      have hnext := (isBehind_lineBreak hbreak).trans hline
      split
      · exact (ih _).trans ((isBehind_blockBreaks _ _ _).trans hnext)
      · exact (isBehind_blockBreaks _ _ _).trans hnext

/-- Behind the empty lines in front of a block. -/
theorem isBehind_blockStart (header : BlockHeader) (least : Nat) (c : Cursor) :
    (blockStart header least c).2.2.IsBehind c := by
  unfold blockStart
  split
  · exact isBehind_leadingBreaks _ _ c
  · exact isBehind_blockBreaks _ _ c

/-- Behind the lines of a block, where there are some. -/
theorem isBehind_blockBody (isFolded : Bool) (breaks : Text) (column : Nat) (c : Cursor) :
    (blockBody isFolded breaks column c).2.2.2.IsBehind c := by
  unfold blockBody
  split
  · exact isBehind_blockLines isFolded column _ c
  · rfl

end Yaml

end PushButton
