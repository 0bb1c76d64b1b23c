/-! Sets of code points as lists of ranges. -/

namespace Scriptlet

/-- Ranges in ascending order, each with both of its ends. -/
abbrev Ranges := List (Nat × Nat)

/-- Whether a code point is in one of the ranges. Past the first range above it there is
nothing to find. -/
def Ranges.has : Ranges → Nat → Bool
  | [], _ => false
  | (low, high) :: rest, n => if n < low then false else n ≤ high || Ranges.has rest n

end Scriptlet
