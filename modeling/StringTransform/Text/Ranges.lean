/-!
# Tables of character ranges

A property of characters that no formula describes is given as a table of closed
ranges of code points, in increasing order and pairwise disjoint. Membership is
decided by halving: a code point below the middle range can only lie in the ranges
before it, one above it only in the ranges after it.
-/

namespace StringTransform

/-- Closed ranges of code points, each given by its first and its last member. -/
abbrev Ranges := Array (Nat × Nat)

namespace Ranges

/-- Whether `n` lies in one of the ranges with index from `lo` up to but not including `hi`. -/
def search (ranges : Ranges) (n lo hi : Nat) : Bool :=
  if lo < hi then
    match ranges[(lo + hi) / 2]? with
    | none => false
    | some (first, last) =>
      if n < first then search ranges n lo ((lo + hi) / 2)
      else n ≤ last || search ranges n ((lo + hi) / 2 + 1) hi
  else false
termination_by hi - lo

/-- Whether the code point `n` lies in one of the ranges. -/
def contains (ranges : Ranges) (n : Nat) : Bool :=
  search ranges n 0 ranges.size

end Ranges

end StringTransform
