/-!
# Ranges of characters

A Unicode property is kept as a list of closed ranges of code points, in ascending order and apart
from one another.

## Main definitions

* `inRanges` — membership
* `areAscending` — whether a list of ranges is in order
-/

namespace FlatLayout.Text

/-- Membership in a list of closed ranges. -/
def inRanges (ranges : List (Nat × Nat)) (n : Nat) : Bool :=
  ranges.any fun r => r.1 ≤ n && n ≤ r.2

/-- Whether the ranges are not empty, in ascending order, and no two of them touch. -/
def areAscending : List (Nat × Nat) → Bool
  | [] => true
  | [r] => r.1 ≤ r.2
  | r :: s :: rest => r.1 ≤ r.2 && r.2 + 1 < s.1 && areAscending (s :: rest)

end FlatLayout.Text
