import PulseCompiler.Number.Text
import PulseCompiler.Number.Exact
set_option autoImplicit false

/-!
# Compile-time values

The values an expression can fold to: booleans, 64-bit integers, doubles, complex numbers,
durations counted in (not yet rounded) samples, arrays, and waveforms. A waveform is known by
its *key*, a canonical text of what produces it, and its length in samples; samples
themselves are never computed.

Keys write numbers in the key layout, integers as the double they convert to, so `64` and
`64.0` give the same key.
-/

namespace PulseCompiler

/-- A waveform known at compile time: the key naming its content and its length. -/
structure WaveformInfo where
  key : String
  samples : Nat
  deriving Repr, DecidableEq, Inhabited

namespace WaveformInfo

/-- Key of a generator call with its folded arguments: `name(a, b)`. -/
def generatedKey (name : String) (args : List String) : String :=
  name ++ "(" ++ ", ".intercalate args ++ ")"

/-- Key of literal samples: `[a, b]`. -/
def samplesKey (values : List String) : String := "[" ++ ", ".intercalate values ++ "]"

/-- Key of a placeholder, told apart by the name it was declared under. -/
def placeholderKey (declaredAs : String) : String := "placeholder:" ++ declaredAs

/-- Greatest value of an unsigned 64-bit counter. -/
def countMax : Nat := Nat.pow 2 64 - 1

/-- One waveform after the other; lengths add, saturating at the greatest 64-bit count. -/
def concat (a b : WaveformInfo) : WaveformInfo :=
  ⟨a.key ++ " ++ " ++ b.key, Nat.min countMax (a.samples + b.samples)⟩

end WaveformInfo

/-- A value folded at compile time. Integers stay within the signed 64-bit range. -/
inductive Value where
  | bool (b : Bool)
  | int (n : Int)
  | float (x : Float)
  | complex (re im : Float)
  | duration (samples : Float)
  | array (items : List Value)
  | waveform (w : WaveformInfo)
  deriving Repr, Inhabited

namespace Value

/-- A number as a double: booleans are `0` and `1`, integers convert to the nearest double. -/
def asFloat? : Value → Option Float
  | bool b => some (if b then 1.0 else 0.0)
  | int n => some (Float.ofInt n)
  | float x => some x
  | _ => none

/-- A whole number: booleans, integers, and finite doubles without a fractional part, the
latter truncated and saturated to the 64-bit range. -/
def asInt? : Value → Option Int
  | bool b => some (if b then 1 else 0)
  | int n => some n
  | float x => if Float.isWhole x then some (Float.toInt64Sat x) else none
  | _ => none

/-- A truth value: booleans, and integers, which are true when not zero. -/
def asBool? : Value → Option Bool
  | bool b => some b
  | int n => some (n != 0)
  | _ => none

mutual
/-- Canonical text of a value in waveform keys. -/
def fragment : Value → String
  | bool b => if b then "true" else "false"
  | int n => Float.keyText (Float.ofInt n)
  | float x => Float.keyText x
  | complex re im => Float.keyText re ++ "+" ++ Float.keyText im ++ "im"
  | duration s => Float.keyText s ++ "dt"
  | array items => "[" ++ fragments items ++ "]"
  | waveform w => w.key

/-- Fragments joined by commas. -/
def fragments : List Value → String
  | [] => ""
  | [v] => fragment v
  | v :: rest => fragment v ++ ", " ++ fragments rest
end

/-- Whether a value may be a sample of a literal waveform. -/
def isSample : Value → Bool
  | bool _ | int _ | float _ | complex .. => true
  | _ => false

/-- A waveform, or an array of samples read as one. -/
def asWaveform? : Value → Option WaveformInfo
  | waveform w => some w
  | array items =>
    if items.all isSample then
      some ⟨WaveformInfo.samplesKey (items.map fragment), items.length⟩
    else none
  | _ => none

/-- A number as a complex number. -/
def asComplex? : Value → Option (Float × Float)
  | complex re im => some (re, im)
  | v => v.asFloat?.map (·, 0.0)

mutual
/-- Equality of values as the compiler compares them: doubles by their numeric value, so
`NaN` differs from itself and `-0.0` equals `0.0`. -/
def same : Value → Value → Bool
  | bool a, bool b => a == b
  | int a, int b => a == b
  | float a, float b => a == b
  | complex a b, complex c d => a == c && b == d
  | duration a, duration b => a == b
  | array a, array b => sameList a b
  | waveform a, waveform b => a == b
  | _, _ => false

/-- Element-wise equality of lists of values. -/
def sameList : List Value → List Value → Bool
  | [], [] => true
  | a :: as, b :: bs => same a b && sameList as bs
  | _, _ => false
end

end Value

end PulseCompiler
