set_option autoImplicit false

/-!
# Binary64 values taken apart

A `Float` is read through its bit pattern as a sign, an integer significand and a power of
two. Decimal text, exact remainders and integer conversions are then computed with `Nat` and
`Int` arithmetic, whose laws are in the logic, rather than with opaque runtime calls.

The converse, `Binary.toFloat`, rounds an exact binary value to the nearest double with ties
to an even significand, which is how every operation of the format rounds.
-/

namespace PulseCompiler

/-- An exact finite value `(-1)^negative · significand · 2^exponent`. The sign is kept
apart from the magnitude so that `-0.0` has a representation of its own. -/
structure Binary where
  negative : Bool
  significand : Nat
  exponent : Int
  deriving Repr, DecidableEq, Inhabited

/-- What a double holds: not a number, an infinity of a sign, or a finite value. -/
inductive FloatShape where
  | nan
  | infinite (negative : Bool)
  | finite (value : Binary)
  deriving Repr, DecidableEq, Inhabited

namespace Binary

/-- Significands of normal doubles lie in `[2^52, 2^53)`. -/
def hidden : Nat := Nat.pow 2 52

/-- The least exponent of the format, that of the subnormals. -/
def minExponent : Int := -1074

/-- The significand is zero. -/
def isZero (b : Binary) : Bool := b.significand == 0

/-- The gap to the next smaller double is half the gap to the next larger one exactly at the
first significand of a binade, except in the lowest binade, whose spacing goes on below. -/
def lowerGapHalved (b : Binary) : Bool :=
  b.significand == hidden && b.exponent > minExponent

/-- Shifts a natural number right by `k` bits, rounding to nearest with ties to even. -/
def shiftRightEven (n k : Nat) : Nat :=
  if k = 0 then n
  else
    let q := n / Nat.pow 2 k
    let r := n % Nat.pow 2 k
    let half := Nat.pow 2 (k - 1)
    if r > half || (r == half && q % 2 == 1) then q + 1 else q

/-- Bit pattern of a double from its sign, biased exponent and stored fraction. -/
def pack (negative : Bool) (biased fraction : Nat) : Float :=
  Float.ofBits
    (UInt64.ofNat ((if negative then Nat.pow 2 63 else 0) + biased * Nat.pow 2 52 + fraction))

/-- The double nearest to an exact binary value, ties to an even significand; values beyond
the largest double become infinities. -/
def toFloat (b : Binary) : Float :=
  if b.significand = 0 then pack b.negative 0 0
  else
    -- The leading bit sits at `top`; a normal result has its biased exponent at `top + 1023`.
    let top : Int := (Nat.log2 b.significand : Int) + b.exponent
    if top + 1023 ≥ 1 then
      let shift : Int := (Nat.log2 b.significand : Int) - 52
      let m :=
        if shift ≥ 0 then shiftRightEven b.significand shift.toNat
        else b.significand * Nat.pow 2 (-shift).toNat
      -- Rounding up may carry into the next binade.
      let (m, top) := if m = Nat.pow 2 53 then (Nat.pow 2 52, top + 1) else (m, top)
      if top + 1023 ≥ 2047 then pack b.negative 2047 0
      else pack b.negative (top + 1023).toNat (m - hidden)
    else
      -- Subnormal range: the unit is `2^-1074`.
      let shift : Int := minExponent - b.exponent
      let m :=
        if shift ≥ 0 then shiftRightEven b.significand shift.toNat
        else b.significand * Nat.pow 2 (-shift).toNat
      if m ≥ hidden then pack b.negative 1 (m - hidden) else pack b.negative 0 m

end Binary

namespace FloatShape

/-- Reads the sign bit, the eleven exponent bits and the fifty-two fraction bits. -/
def ofFloat (x : Float) : FloatShape :=
  let bits := x.toBits.toNat
  let negative := decide (bits / Nat.pow 2 63 = 1)
  let biased : Nat := bits / Nat.pow 2 52 % 2048
  let fraction : Nat := bits % Nat.pow 2 52
  if biased = 2047 then
    if fraction = 0 then .infinite negative else .nan
  else if biased = 0 then .finite ⟨negative, fraction, Binary.minExponent⟩
  else .finite ⟨negative, fraction + Binary.hidden, (biased : Int) - 1075⟩

end FloatShape

/-- The sign bit of a double, set also for `-0.0` and for a NaN that carries it. -/
def Float.signBit (x : Float) : Bool := decide (x.toBits.toNat / Nat.pow 2 63 = 1)

end PulseCompiler
