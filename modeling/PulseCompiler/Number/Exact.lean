import PulseCompiler.Number.Binary
set_option autoImplicit false

/-!
# Exact operations on doubles

The operations below have exact results that are then represented or clamped, so they are
computed on the decoded value rather than through the runtime: the remainder of a division
truncated toward zero, rounding half away from zero, the integer part, and the saturating
conversions to 64-bit integers (`NaN` goes to zero, out-of-range values to the nearest end).
-/

namespace PulseCompiler

namespace Binary

/-- Magnitudes `m₁ · 2^e₁` and `m₂ · 2^e₂` on the common exponent `min e₁ e₂`. -/
def align (a b : Binary) : Nat × Nat × Int :=
  let e := min a.exponent b.exponent
  (a.significand * Nat.pow 2 (a.exponent - e).toNat, b.significand * Nat.pow 2 (b.exponent - e).toNat, e)

/-- The integer part of the magnitude, truncating toward zero. -/
def truncNat (b : Binary) : Nat :=
  if b.exponent ≥ 0 then b.significand * Nat.pow 2 b.exponent.toNat
  else b.significand / Nat.pow 2 (-b.exponent).toNat

/-- The magnitude rounded to the nearest integer, halves away from zero. -/
def roundNat (b : Binary) : Nat :=
  if b.exponent ≥ 0 then b.significand * Nat.pow 2 b.exponent.toNat
  else
    let d := Nat.pow 2 (-b.exponent).toNat
    let q := b.significand / d
    if 2 * (b.significand % d) ≥ d then q + 1 else q

/-- The magnitude rounded to the nearest integer, halves away from zero, with whether the
magnitude was whole already: `roundNat` and `isWhole` from one division. -/
def roundWhole (b : Binary) : Nat × Bool :=
  if b.exponent ≥ 0 then (b.significand * Nat.pow 2 b.exponent.toNat, true)
  else
    let d := Nat.pow 2 (-b.exponent).toNat
    let q := b.significand / d
    let r := b.significand % d
    (if 2 * r ≥ d then q + 1 else q, r == 0)

/-- The value has no fractional part. -/
def isWhole (b : Binary) : Bool :=
  b.exponent ≥ 0 || b.significand % Nat.pow 2 (-b.exponent).toNat == 0

/-- The signed integer part. -/
def truncInt (b : Binary) : Int :=
  if b.negative then -(b.truncNat : Int) else (b.truncNat : Int)

end Binary

/-- Whether a double is finite. -/
def Float.finite (x : Float) : Bool :=
  match FloatShape.ofFloat x with
  | .finite _ => true
  | _ => false

/-- Remainder of `x / y` truncated toward zero: `x - n·y` for the integer `n` nearest to
`x / y` toward zero, with the sign of `x`. It is exact, so it is computed on the aligned
significands. `NaN` when `x` is infinite or `y` is zero; `x` itself when `y` is infinite. -/
def Float.remainder (x y : Float) : Float :=
  match FloatShape.ofFloat x, FloatShape.ofFloat y with
  | .finite a, .finite b =>
    if b.significand = 0 then 0.0 / 0.0
    else
      let (mx, my, e) := Binary.align a b
      Binary.toFloat ⟨a.negative, mx % my, e⟩
  | .finite _, .infinite _ => x
  | _, _ => 0.0 / 0.0

/-- Rounds to the nearest whole number, halves away from zero, keeping the sign (so `-0.3`
becomes `-0.0`). Infinities and `NaN` are returned as they are. -/
def Float.roundHalfAway (x : Float) : Float :=
  match FloatShape.ofFloat x with
  | .finite b => Binary.toFloat ⟨b.negative, b.roundNat, 0⟩
  | _ => x

/-- The value is finite and has no fractional part. -/
def Float.isWhole (x : Float) : Bool :=
  match FloatShape.ofFloat x with
  | .finite b => b.isWhole
  | _ => false

/-- Least value of a signed 64-bit integer. -/
def int64Min : Int := -(Nat.pow 2 63 : Nat)

/-- Greatest value of a signed 64-bit integer. -/
def int64Max : Int := (Nat.pow 2 63 - 1 : Nat)

/-- Greatest value of an unsigned 64-bit integer. -/
def uint64Max : Nat := Nat.pow 2 64 - 1

/-- Truncation to a signed 64-bit integer, saturating at both ends; `NaN` gives zero. -/
def Float.toInt64Sat (x : Float) : Int :=
  match FloatShape.ofFloat x with
  | .nan => 0
  | .infinite negative => if negative then int64Min else int64Max
  | .finite b => max int64Min (min int64Max b.truncInt)

/-- Truncation to an unsigned 64-bit integer, saturating at both ends; `NaN` and negative
values give zero. -/
def Float.toUInt64Sat (x : Float) : Nat :=
  match FloatShape.ofFloat x with
  | .nan => 0
  | .infinite negative => if negative then 0 else uint64Max
  | .finite b => if b.negative then 0 else min uint64Max b.truncNat

/-- The nearest double to an integer, ties to even. -/
def Float.ofIntNearest (n : Int) : Float :=
  Binary.toFloat ⟨decide (n < 0), n.natAbs, 0⟩

end PulseCompiler
