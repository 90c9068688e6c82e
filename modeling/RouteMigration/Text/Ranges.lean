/-! Sets of characters, given as tables of closed ranges of code points in rising order. -/

namespace RouteMigration.Text

/-- Whether `n` lies in one of the ranges from index `lo` up to `hi`, halving what is left
each time. The fuel is how often it can be halved. -/
def searchRanges (ranges : Array (Nat × Nat)) (n : Nat) : Nat → Nat → Nat → Bool
  | 0, _, _ => false
  | fuel + 1, lo, hi =>
    if lo ≥ hi then false
    else
      let mid := (lo + hi) / 2
      let (first, last) := ranges.getD mid (0, 0)
      if n < first then searchRanges ranges n fuel lo mid
      else if last < n then searchRanges ranges n fuel (mid + 1) hi
      else true

/-- Whether a character lies in one of the ranges of a table in rising order. -/
def inTable (ranges : Array (Nat × Nat)) (c : Char) : Bool :=
  searchRanges ranges c.toNat (ranges.size.log2 + 1) 0 ranges.size

end RouteMigration.Text
