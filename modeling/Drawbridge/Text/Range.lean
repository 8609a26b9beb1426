import Drawbridge.Text.Basic

/-!
Sets of characters given by ranges of code points.
-/

namespace Drawbridge

/-- Whether a character lies in one of the ranges, ends included. -/
def inRanges (ranges : List (Nat × Nat)) (c : Char) : Bool :=
  ranges.any fun (lo, hi) => lo ≤ c.toNat && c.toNat ≤ hi

end Drawbridge
