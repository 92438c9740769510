set_option autoImplicit false

/-!
# Reading numbers from text

`Float.ofText?` reads the text of a double: an optional sign, then `inf`, `infinity` or
`nan` in any case, or decimal digits with an optional point and an optional exponent, at
least one digit before or after the point. The result is the double nearest to the decimal,
ties to even. `Int.ofText?` reads an optional sign followed by decimal digits.
-/

namespace PulseCompiler

/-- Value of a list of decimal digits. -/
def digitsValue (ds : List Char) : Nat := ds.foldl (fun n d => 10 * n + (d.toNat - 48)) 0

/-- The double nearest to `digits · 10^exp`, deciding exponents far outside the range of
doubles without computing the power. -/
def Float.ofDecimal (digits : Nat) (exp : Int) : Float :=
  if digits = 0 then 0.0
  else
    let lead := exp + ((toString digits).length : Int)
    if lead > 310 then 1.0 / 0.0
    else if lead < -330 then 0.0
    else if exp ≥ 0 then Float.ofScientific digits false exp.toNat
    else Float.ofScientific digits true (-exp).toNat

/-- Splits an optional sign from the front. -/
def splitSign (cs : List Char) : Bool × List Char :=
  match cs with
  | '-' :: rest => (true, rest)
  | '+' :: rest => (false, rest)
  | _ => (false, cs)

/-- Reads the text of a double. -/
def Float.ofText? (s : String) : Option Float :=
  let (negative, body) := splitSign s.toList
  let apply (x : Float) := if negative then -x else x
  let lower := String.ofList (body.map Char.toLower)
  if lower == "inf" || lower == "infinity" then some (apply (1.0 / 0.0))
  else if lower == "nan" then some (0.0 / 0.0)
  else
    let whole := body.takeWhile Char.isDigit
    let rest := body.drop whole.length
    let (frac, rest) := match rest with
      | '.' :: r => (r.takeWhile Char.isDigit, r.drop (r.takeWhile Char.isDigit).length)
      | r => ([], r)
    if whole.isEmpty && frac.isEmpty then none
    else
      let expPart : Option Int :=
        match rest with
        | [] => some 0
        | e :: r =>
          if e == 'e' || e == 'E' then
            let (en, ed) := splitSign r
            if !ed.isEmpty && ed.all Char.isDigit then
              some (if en then -(digitsValue ed : Int) else digitsValue ed)
            else none
          else none
      expPart.map fun e =>
        apply (Float.ofDecimal (digitsValue (whole ++ frac)) (e - frac.length))

/-- Reads an optional sign followed by decimal digits. -/
def Int.ofText? (s : String) : Option Int :=
  let (negative, body) := splitSign s.toList
  if body.isEmpty || !body.all Char.isDigit then none
  else
    let n : Int := digitsValue body
    some (if negative then -n else n)

end PulseCompiler
