import Mathlib.Data.List.Basic
import PushButton.Text.Symbol

/-!
# Codes

A code writes every object by a word. The words of a sequence of objects that stand one behind the
other are told apart when no word is the beginning of another, and the end of the sequence is found
when it is marked by a symbol with which no word begins, even if the symbol occurs inside words.
-/

namespace PushButton.Text

/-- The text of two strings that stand one behind the other. -/
theorem ofString_append (a b : String) : ofString (a ++ b) = ofString a ++ ofString b := by
  unfold ofString
  rw [String.toList_append, List.map_append]

variable {α : Type} {word : α → Text} {stop : Symbol}

/-- A text is cut at the first mark. -/
theorem cut?_append_cons {t : Text} (ht : stop ∉ t) (u : Text) :
    (t ++ stop :: u).cut? stop = some (t, u) := by
  induction t with
  | nil => exact if_pos rfl
  | cons s t ih =>
    rw [List.mem_cons, not_or] at ht
    rw [List.cons_append, cut?, if_neg (Ne.symm ht.1), ih ht.2]
    rfl

/-- What stands in front of the first mark is told apart from what stands behind it. -/
theorem append_cons_inj {t t' u u' : Text} (ht : stop ∉ t) (ht' : stop ∉ t')
    (heq : t ++ stop :: u = t' ++ stop :: u') : t = t' ∧ u = u' := by
  have hcut : some (t, u) = some (t', u') := by
    rw [← cut?_append_cons ht, ← cut?_append_cons ht', heq]
  cases hcut
  exact ⟨rfl, rfl⟩

/-- A word is told apart from the others, whatever is written behind it. -/
def IsPrefixFree (word : α → Text) : Prop :=
  ∀ a b u v, word a ++ u = word b ++ v → a = b ∧ u = v

/-- Words are told apart by a reader that takes one of them off the front of a text. -/
theorem IsPrefixFree.of_read {read : Text → Option (α × Text)}
    (hread : ∀ a rest, read (word a ++ rest) = some (a, rest)) : IsPrefixFree word := by
  intro a b u v heq
  have hsame : some (a, u) = some (b, v) := by rw [← hread, ← hread, heq]
  cases hsame
  exact ⟨rfl, rfl⟩

/-- Sequences of words are told apart, and a symbol marks where they end. -/
structure IsDelimited (word : α → Text) (stop : Symbol) : Prop where
  /-- A word is told apart from the others. -/
  apart : IsPrefixFree word
  /-- Words are not empty, and none begins with the mark. -/
  begins : ∀ a, ∃ s rest, word a = s :: rest ∧ s ≠ stop

namespace IsDelimited

/-- What begins with a word does not begin with the mark. -/
theorem append_ne_cons (h : IsDelimited word stop) (a : α) (u v : Text) :
    word a ++ u ≠ stop :: v := by
  obtain ⟨s, rest, hword, hs⟩ := h.begins a
  rw [hword, List.cons_append]
  exact fun heq => hs (List.cons.inj heq).1

/-- Two sequences of words with the mark behind them, and more, begin alike only when they are the
same. The induction takes one word off both. -/
theorem flatMap_append_cons_inj (h : IsDelimited word stop) {as bs : List α} {u v : Text}
    (heq : as.flatMap word ++ stop :: u = bs.flatMap word ++ stop :: v) : as = bs ∧ u = v := by
  induction as generalizing bs with
  | nil =>
    cases bs with
    | nil => exact ⟨rfl, (List.cons.inj heq).2⟩
    | cons b bs =>
      rw [List.flatMap_cons, List.append_assoc] at heq
      exact absurd heq.symm (h.append_ne_cons b _ _)
  | cons a as ih =>
    cases bs with
    | nil =>
      rw [List.flatMap_cons, List.append_assoc] at heq
      exact absurd heq (h.append_ne_cons a _ _)
    | cons b bs =>
      simp only [List.flatMap_cons, List.append_assoc] at heq
      obtain ⟨rfl, hrest⟩ := h.apart a b _ _ heq
      obtain ⟨rfl, rfl⟩ := ih hrest
      exact ⟨rfl, rfl⟩

/-- Different sequences are written differently. -/
theorem flatMap_injective (h : IsDelimited word stop) :
    Function.Injective fun as : List α => as.flatMap word := by
  intro as bs heq
  refine (h.flatMap_append_cons_inj (u := []) (v := []) ?_).1
  exact congrArg (· ++ [stop]) heq

end IsDelimited

end PushButton.Text
