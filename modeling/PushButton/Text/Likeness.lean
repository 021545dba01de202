import PushButton.Text.Symbol

/-!
# Likeness of texts

Two texts are alike when much of them is common. What is common is found by taking the longest
common piece, and going on with what stands before it and behind it in both texts.
-/

namespace PushButton

namespace Text

/-- The number of symbols with which both of two texts begin. -/
def commonStart : Text → Text → Nat
  | a :: as, b :: bs => if a = b then commonStart as bs + 1 else 0
  | _, _ => 0

/-- The positions in two texts at which their longest common piece begins, and its length. Of
several pieces the first one counts. -/
def longestCommon (a b : Text) : Nat × Nat × Nat :=
  (List.range a.length).foldl
    (fun best i => (List.range b.length).foldl
      (fun (best : Nat × Nat × Nat) j =>
        let n := commonStart (a.drop i) (b.drop j)
        if best.2.2 < n then (i, j, n) else best) best)
    (0, 0, 0)

/-- The number of symbols that two texts have in common; the first argument bounds the number of
pieces. -/
def commonCount : Nat → Text → Text → Nat
  | 0, _, _ => 0
  | fuel + 1, a, b =>
    match longestCommon a b with
    | (_, _, 0) => 0
    | (i, j, n) =>
      n + commonCount fuel (a.take i) (b.take j) +
        commonCount fuel (a.drop (i + n)) (b.drop (j + n))

/-- At least three fifths of two texts are common. -/
def isLike (a b : Text) : Bool :=
  3 * (a.length + b.length) ≤ 10 * commonCount a.length a b

/-- The texts among some that are like a text, in order. -/
def similar (t : Text) (ts : List Text) : List Text := (ts.filter (isLike · t)).mergeSort le

end Text

end PushButton
