/-!
# Text — Ranges

Tables of code points: closed ranges in ascending order.
-/

namespace TracedMachine.Text

/-- A number is in one of the ranges of a table.  The search ends at the first range above it. -/
def inRanges (n : Nat) : List (Nat × Nat) → Bool
  | [] => false
  | (low, high) :: ranges => low ≤ n && (n ≤ high || inRanges n ranges)

end TracedMachine.Text
