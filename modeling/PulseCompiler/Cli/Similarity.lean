set_option autoImplicit false

/-!
# Similar names

A mistyped name on the command line is answered with the names it resembles. Resemblance is
the Jaro similarity: each character of the first string is matched, left to right, with the
first unused equal character of the second string within a window around its position (half
the longer length, less one); a match lying before the previous match counts as a
transposition. The similarity is the mean of three shares: the matched share of each string,
and the share of matches that are not transpositions. Two empty strings are identical, and
two one-character strings are identical exactly when equal.

A name is suggested when its similarity to the mistyped one exceeds `0.7`; suggestions are
listed from the least to the most similar, and names equally similar keep their order.
-/

namespace PulseCompiler

/-- The progress of matching one string against another. -/
structure JaroScan where
  /-- Which characters of the second string are matched. -/
  used : List Bool
  matched : Nat := 0
  transpositions : Nat := 0
  /-- The position of the previous match in the second string. -/
  last : Nat := 0

/-- The first unused position in `[lo, hi]` of a string that holds a character. -/
def firstUnused (c : Char) (ys : List Char) (used : List Bool) (lo hi : Nat) : Option Nat :=
  (List.range (hi + 1)).find? fun j => lo ≤ j && ys[j]? == some c && used[j]? == some false

/-- Matches one character of the first string, at position `i`, within `window`. -/
def JaroScan.step (ys : List Char) (window : Nat) (s : JaroScan) (ci : Char × Nat) : JaroScan :=
  let (c, i) := ci
  match firstUnused c ys s.used (i - window) (Nat.min (ys.length - 1) (i + window)) with
  | some j =>
    { used := s.used.set j true
      matched := s.matched + 1
      transpositions := if j < s.last then s.transpositions + 1 else s.transpositions
      last := j }
  | none => s

/-- The Jaro similarity of two strings, between `0` and `1`. -/
def jaro (a b : String) : Float :=
  let xs := a.toList
  let ys := b.toList
  let n := xs.length
  let m := ys.length
  if n == 0 && m == 0 then 1.0
  else if n == 0 || m == 0 then 0.0
  else if n == 1 && m == 1 then (if xs == ys then 1.0 else 0.0)
  else
    let window := Nat.max n m / 2 - 1
    let scan := xs.zipIdx.foldl (JaroScan.step ys window) { used := List.replicate m false }
    if scan.matched == 0 then 0.0
    else
      let k := scan.matched.toFloat
      (1.0 / 3.0) * (k / n.toFloat + k / m.toFloat + (k - scan.transpositions.toFloat) / k)

/-- The names resembling a mistyped one, least similar first. -/
def similarNames (typed : String) (names : List String) : List String :=
  let scored := (names.map fun n => (jaro typed n, n)).filter (·.1 > 0.7)
  (scored.mergeSort fun x y => x.1 ≤ y.1).map (·.2)

end PulseCompiler
