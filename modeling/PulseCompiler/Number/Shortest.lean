import PulseCompiler.Number.Binary
set_option autoImplicit false

/-!
# The shortest decimal that reads back

A positive double `v` is the nearest double to every real of its *rounding interval*: the
reals closer to `v` than to either neighbour, the two ends included when the significand is
even (ties on reading go to the even significand). The shortest decimal of `v` is found grid
by grid: for `n = 1, 2, …` digits the grid is `10^k` with `k = ⌊log₁₀ v⌋ - n + 1`, and only
the two grid points around `v` can lie in the interval. The first grid with a hit wins; of
two hits the nearer one is taken, and an exact tie goes to the larger one.

Seventeen digits always suffice for a double, so the search is a walk over a list of
seventeen lengths. All comparisons are exact, on `Nat`.
-/

namespace PulseCompiler

/-- A decimal `digits · 10^exponent` with a positive coefficient. -/
structure Decimal where
  digits : Nat
  exponent : Int
  deriving Repr, DecidableEq, Inhabited

namespace Decimal

/-- Removes trailing zeros of the coefficient, moving them into the exponent. The coefficient
of a double has at most eighteen digits, the bound used as fuel. -/
def trim : Nat → Decimal → Decimal
  | 0, d => d
  | fuel + 1, d =>
    if d.digits ≠ 0 ∧ d.digits % 10 = 0 then trim fuel ⟨d.digits / 10, d.exponent + 1⟩ else d

/-- Text of the coefficient. -/
def text (d : Decimal) : String := toString d.digits

/-- Position of the decimal point counted from the left of the coefficient's text: the value
is `0.text · 10^point`. -/
def point (d : Decimal) : Int := d.exponent + (d.text.length : Int)

end Decimal

namespace Shortest

/-- An exact positive rational `num / den`. -/
structure Ratio where
  num : Nat
  den : Nat

/-- `x · 2^e` as a ratio. -/
def Ratio.scaled (x : Nat) (e : Int) : Ratio :=
  if e ≥ 0 then ⟨x * Nat.pow 2 e.toNat, 1⟩ else ⟨x, Nat.pow 2 (-e).toNat⟩

/-- `10^k` as a ratio. -/
def Ratio.tenPow (k : Int) : Ratio :=
  if k ≥ 0 then ⟨Nat.pow 10 k.toNat, 1⟩ else ⟨1, Nat.pow 10 (-k).toNat⟩

/-- Number of decimal digits of a natural number (one for zero). -/
def digitCount (n : Nat) : Nat := (toString n).length

/-- `⌊log₁₀ (num / den)⌋` for a positive ratio: the digit counts fix it up to one. -/
def floorLog10 (r : Ratio) : Int :=
  let guess : Int := (digitCount r.num : Int) - (digitCount r.den : Int)
  let p := Ratio.tenPow guess
  -- `10^guess ≤ num / den` iff `p.num · den ≤ num · p.den`.
  if p.num * r.den ≤ r.num * p.den then guess else guess - 1

/-- The rounding interval of a positive value `4m · 2^(e-2)`, in units of `2^(e-2)`. -/
structure Interval where
  low : Nat
  value : Nat
  high : Nat
  inclusive : Bool
  scale : Int

/-- The interval of a finite positive binary value. -/
def Interval.ofBinary (b : Binary) : Interval :=
  { low := if b.lowerGapHalved then 4 * b.significand - 1 else 4 * b.significand - 2
    value := 4 * b.significand
    high := 4 * b.significand + 2
    inclusive := b.significand % 2 == 0
    scale := b.exponent - 2 }

/-- Whether `d · 10^k` lies in the interval. -/
def Interval.contains (iv : Interval) (k : Int) (d : Nat) : Bool :=
  let g := Ratio.tenPow k
  let u := Ratio.scaled 1 iv.scale
  -- compare `d · g.num / g.den` with `x · u.num / u.den`
  let lhs := d * g.num * u.den
  let bound (x : Nat) := x * u.num * g.den
  let aboveLow := if iv.inclusive then bound iv.low ≤ lhs else bound iv.low < lhs
  let belowHigh := if iv.inclusive then lhs ≤ bound iv.high else lhs < bound iv.high
  aboveLow && belowHigh

/-- The grid point of `10^k` at or below the value, and whether the value sits exactly on it,
above it by less than half a step, or exactly half a step above it. -/
def Interval.floorOn (iv : Interval) (k : Int) : Nat × Ordering :=
  let g := Ratio.tenPow k
  let u := Ratio.scaled 1 iv.scale
  -- value / 10^k = value · u.num · g.den / (u.den · g.num)
  let num := iv.value * u.num * g.den
  let den := u.den * g.num
  let q := num / den
  let r := num % den
  (q, compare (2 * r) den)

/-- The decimal chosen on the grid `10^k`, if any point of that grid is in the interval. -/
def Interval.onGrid (iv : Interval) (k : Int) : Option Nat :=
  let (q, half) := iv.floorOn k
  let down := iv.contains k q && q ≠ 0
  let up := iv.contains k (q + 1)
  match down, up with
  | true, true => if half == .lt then some q else some (q + 1)
  | true, false => some q
  | false, true => some (q + 1)
  | false, false => none

/-- Fewest significant digits that identify a double. -/
def maxDigits : Nat := 17

/-- The shortest decimal in the interval, nearest to the value among those; `none` only for
an empty search, which a double never meets. -/
def search (iv : Interval) (lead : Int) : List Nat → Option Decimal
  | [] => none
  | n :: rest =>
    let k := lead - (n : Int) + 1
    match iv.onGrid k with
    | some d => some (Decimal.trim 20 ⟨d, k⟩)
    | none => search iv lead rest

end Shortest

/-- The value as a natural number when the significand is below `2^53`, the exponent lies in
`[-53, 0]` and its power of two divides the significand. Every double that is a whole number
below `2^53` has this form. -/
def Binary.smallWhole? (b : Binary) : Option Nat :=
  if b.significand < Nat.pow 2 53 && b.exponent ≤ 0 && b.exponent ≥ -53 then
    let d := Nat.pow 2 (-b.exponent).toNat
    if b.significand % d = 0 then some (b.significand / d) else none
  else none

open Shortest in
/-- The shortest decimal that reads back as the given positive binary value, nearest to it
among the shortest, ties to the larger. A zero significand gives the coefficient zero.

A whole number below `2^53` is its own answer: doubles there lie at most one apart, so its
interval reaches at most half a unit to each side, while every decimal with fewer significant
digits is another whole number, a unit or more away. -/
def Binary.shortest (b : Binary) : Decimal :=
  if b.significand = 0 then ⟨0, 0⟩
  else
    match b.smallWhole? with
    | some n => Decimal.trim 20 ⟨n, 0⟩
    | none =>
      let iv := Interval.ofBinary b
      let lead := floorLog10 (Ratio.scaled b.significand b.exponent)
      match search iv lead ((List.range maxDigits).map (· + 1)) with
      | some d => d
      | none => ⟨b.significand, 0⟩

end PulseCompiler
