/-
Sets of characters given by ranges of code points.

The tables beside this module are lists of closed ranges in ascending order; membership is a search
from the front.
-/

namespace LiveRuns.Unicode

def inRanges (ranges : List (Nat × Nat)) (code : Nat) : Bool :=
  ranges.any fun (first, last) => first ≤ code && code ≤ last

end LiveRuns.Unicode
