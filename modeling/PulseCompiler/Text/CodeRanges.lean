set_option autoImplicit false

/-!
# Sets of code points

A property of characters taken from the Unicode Character Database is a set of code points,
stored as inclusive ranges in increasing order that neither overlap nor touch. Membership is
found by halving the ranges still in question, so a lookup reads a handful of the ranges
however many there are.
-/

namespace PulseCompiler

/-- Inclusive ranges of code points in increasing order, neither overlapping nor touching. -/
structure CodeRanges where
  bounds : Array (Nat × Nat)
  deriving Repr, Inhabited

namespace CodeRanges

/-- Whether one of the ranges at positions `lo` to `hi`, `hi` excluded, holds a code point.
The ranges are in increasing order, so a code point below the middle range can only lie in
the ranges before it, and one above it only in those after it. -/
def holdsBetween (r : CodeRanges) (n : Nat) (lo hi : Nat) : Bool :=
  if lo < hi then
    let mid := (lo + hi) / 2
    let (first, last) := r.bounds.getD mid (0, 0)
    if n < first then r.holdsBetween n lo mid
    else if last < n then r.holdsBetween n (mid + 1) hi
    else true
  else false
termination_by hi - lo

/-- Whether a code point lies in one of the ranges. -/
def holds (r : CodeRanges) (n : Nat) : Bool := r.holdsBetween n 0 r.bounds.size

/-- Whether a character lies in one of the ranges. -/
def contains (r : CodeRanges) (c : Char) : Bool := r.holds c.toNat

/-- No code point lies in an empty table. -/
theorem holdsBetween_self (r : CodeRanges) (n lo : Nat) : r.holdsBetween n lo lo = false := by
  rw [holdsBetween]
  simp

end CodeRanges

end PulseCompiler
