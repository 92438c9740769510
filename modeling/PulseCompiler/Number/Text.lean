import PulseCompiler.Number.Shortest
set_option autoImplicit false

/-!
# Decimal text of doubles

Two layouts of the shortest decimal are used by the compiler. Program text writes numbers
positionally, never with an exponent, and drops a fractional part that is zero
(`5000000000`, `0.0000001`, `1`). Waveform keys keep one fractional digit at least, and switch
to scientific notation when the leading digit's exponent is below `-4` or at least `16`
(`64.0`, `0.0001`, `1e-5`, `1.2345678901234568e17`). Both spell the sign of `-0.0`.

A layout is a record of these decisions; one printer serves both.
-/

namespace PulseCompiler

/-- How a decimal is laid out as text. -/
structure Layout where
  /-- Leading-digit exponents in `[low, high)` are written positionally, others in scientific
  notation; `none` writes every value positionally. -/
  positional : Option (Int × Int)
  /-- Least number of digits after the point in positional notation. -/
  minFraction : Nat
  /-- Whether a scientific exponent that is not negative carries a plus sign. -/
  plusExponent : Bool
  nanText : String
  infText : String
  deriving Repr, Inhabited

namespace Layout

/-- Program text: positional always, no point for whole numbers. -/
def program : Layout := ⟨none, 0, false, "NaN", "inf"⟩

/-- Waveform keys and value fragments: a point always, scientific outside `[-4, 16)`. -/
def key : Layout := ⟨some (-4, 16), 1, false, "NaN", "inf"⟩

/-- `n` copies of the digit zero. -/
def zeros (n : Nat) : String := String.ofList (List.replicate n '0')

/-- Positional text of `0.ds · 10^point`, with at least `minFraction` fractional digits. -/
def positionalText (ds : String) (point : Int) (minFraction : Nat) : String :=
  let n := ds.length
  if point ≤ 0 then
    let lead := zeros (-point).toNat
    let frac := lead ++ ds
    "0." ++ frac ++ zeros (minFraction - frac.length)
  else if point < n then
    let p := point.toNat
    let frac := String.ofList (ds.toList.drop p)
    String.ofList (ds.toList.take p) ++ "." ++ frac ++ zeros (minFraction - frac.length)
  else
    let whole := ds ++ zeros (point.toNat - n)
    if minFraction = 0 then whole else whole ++ "." ++ zeros minFraction

/-- Scientific text `d.ddde±x` of `0.ds · 10^point`; a single digit has no point, and an
exponent that is not negative has a plus sign when `plus` says so. -/
def scientificText (plus : Bool) (ds : String) (point : Int) : String :=
  let mantissa :=
    match ds.toList with
    | [] => "0"
    | [d] => String.singleton d
    | d :: rest => String.singleton d ++ "." ++ String.ofList rest
  let sign := if plus && point ≥ 1 then "+" else ""
  mantissa ++ "e" ++ sign ++ toString (point - 1)

/-- Text of a finite binary value. -/
def finite (l : Layout) (b : Binary) : String :=
  let sign := if b.negative then "-" else ""
  if b.significand = 0 then
    sign ++ (if l.minFraction = 0 then "0" else "0." ++ zeros l.minFraction)
  else
    let d := b.shortest
    let ds := d.text
    let lead := d.point - 1
    let scientific :=
      match l.positional with
      | none => false
      | some (lo, hi) => lead < lo || lead ≥ hi
    sign ++
      (if scientific then scientificText l.plusExponent ds d.point
       else positionalText ds d.point l.minFraction)

/-- Text of any double. -/
def render (l : Layout) (x : Float) : String :=
  match FloatShape.ofFloat x with
  | .nan => l.nanText
  | .infinite negative => (if negative then "-" else "") ++ l.infText
  | .finite b => l.finite b

end Layout

/-- A double as it is written in program text. -/
def Float.programText (x : Float) : String := Layout.program.render x

/-- A double as it is written in waveform keys. -/
def Float.keyText (x : Float) : String := Layout.key.render x

end PulseCompiler
