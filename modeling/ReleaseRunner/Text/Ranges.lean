/-!
# Ranges of code points

Classes of the character database are kept as ascending lists of closed ranges; a look-up
stops at the first range that ends at or after the code point.
-/

namespace ReleaseRunner.Text

/-- The code point lies in one of the ranges, which are in ascending order. -/
def inRanges (n : Nat) : List (Nat × Nat) → Bool
  | [] => false
  | (low, high) :: rest => if n ≤ high then low ≤ n else inRanges n rest

end ReleaseRunner.Text
