/-!
# Ranges of characters

A class of characters is given as a table of ranges of code points in ascending order.
-/

namespace Strata.Text

/-- Is the code point in one of the ranges, which are in ascending order? -/
def inRanges (n : Nat) : List (Nat × Nat) → Bool
  | [] => false
  | (low, high) :: rest => if n < low then false else n ≤ high || inRanges n rest

end Strata.Text
