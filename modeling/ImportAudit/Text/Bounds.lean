/-
# ImportAudit.Text.Bounds — sets of numbers as sorted bounds.

A set that consists of runs is stored as the sorted list of the numbers at which it changes: the
first of every run and the first past every run.  How many bounds a number has at or below it is
found by halving, and the number belongs to the set if that count is odd.
-/

namespace ImportAudit.Text

/-- The number of leading entries of the sorted array that are at most `n`, all entries before `lo`
being so and none from `hi` on: the interval is halved until it is empty. -/
def rankBetween (bounds : Array Nat) (n : Nat) : Nat → Nat → Nat → Nat
  | 0, lo, _ => lo
  | fuel + 1, lo, hi =>
    if lo < hi then
      let mid := (lo + hi) / 2
      if n < bounds[mid]?.getD 0 then rankBetween bounds n fuel lo mid
      else rankBetween bounds n fuel (mid + 1) hi
    else lo

/-- The number of entries of the sorted array that are at most `n`. -/
def rank (bounds : Array Nat) (n : Nat) : Nat :=
  rankBetween bounds n (bounds.size + 1) 0 bounds.size

/-- The number belongs to the set with these bounds. -/
def withinBounds (bounds : Array Nat) (n : Nat) : Bool := rank bounds n % 2 == 1

end ImportAudit.Text
