/-! Sets of characters given by ascending, disjoint ranges of code points. -/

namespace DocGrid

/-- Ascending disjoint ranges of code points, both ends included. -/
structure RangeSet where
  ranges : List (Nat × Nat)

namespace RangeSet

/-- The search stops at the first range that starts beyond the code point. -/
def covers : List (Nat × Nat) → Nat → Bool
  | [], _ => false
  | (lo, hi) :: rest, n => if n < lo then false else decide (n ≤ hi) || covers rest n

def contains (s : RangeSet) (c : Char) : Bool :=
  covers s.ranges c.toNat

end RangeSet

end DocGrid
