/-
  Sets of characters given as ranges of code points.

  Key definitions include:
    * `ShapeTypes.Text.CharRanges`
    * `ShapeTypes.Text.CharRanges.contains`
-/

namespace ShapeTypes

namespace Text

/-
  Closed ranges of code points in increasing order.
-/
abbrev CharRanges :=
  List (Nat × Nat)

namespace CharRanges

/-
  A code point lies in one of the ranges.  The search ends
  at the first range that starts after it, which is right
  because the ranges increase.
-/
def contains : CharRanges → Nat → Bool
  | [], _ => false
  | (low, high) :: rest, n =>
      if n < low then false
      else if n ≤ high then true
      else contains rest n

end CharRanges

end Text

end ShapeTypes
