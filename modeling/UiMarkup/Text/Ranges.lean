/-!
# Tables of ranges

A set of code points is kept as the sorted array of its range boundaries: a range starts at each
entry of even index and ends before the entry that follows it. A code point belongs to the set iff
an odd number of boundaries lie at or below it.
-/

namespace UiMarkup.Text

/-- How many of the sorted entries in `[lo, hi)` and before `lo` are at most `n`, by bisection. -/
def countUpTo (bounds : Array Nat) (n lo hi : Nat) : Nat :=
  if lo < hi then
    let mid := (lo + hi) / 2
    if bounds.getD mid 0 ≤ n then countUpTo bounds n (mid + 1) hi
    else countUpTo bounds n lo mid
  else lo
termination_by hi - lo

/-- `n` lies in one of the ranges that the sorted `bounds` delimit. -/
def inRanges (bounds : Array Nat) (n : Nat) : Bool :=
  countUpTo bounds n 0 bounds.size % 2 == 1

end UiMarkup.Text
