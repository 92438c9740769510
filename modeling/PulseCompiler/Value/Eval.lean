import PulseCompiler.Value.Basic
import PulseCompiler.Program.Expr
import PulseCompiler.Program.Builtin
import PulseCompiler.Generator
import Std.Data.HashMap
set_option autoImplicit false

/-!
# Folding expressions

`Fold.eval` computes the value of an expression from the values known for symbols. Integer
arithmetic is exact and refuses results outside the signed 64-bit range; a division of
integers stays an integer when it leaves no remainder and becomes a double otherwise.
Durations may be added, subtracted and divided by one another, and scaled by numbers.
Anything that depends on a value not known before run time is *dynamic*; an operation that
is not defined on its operands is *invalid*.

`roundSamples` turns a duration into a whole number of samples, rounding halves away from
zero and noting when the rounding moved the value by more than `10⁻⁶`.
-/

namespace PulseCompiler

/-- Why an expression has no compile-time value. -/
inductive EvalError where
  /-- A symbol whose value is only known at run time. -/
  | unknownSymbol (name : String)
  /-- A call of something other than a generator. -/
  | callResult (name : String)
  | overflow
  | arith (op : ArithOp)
  | compare (op : CmpOp)
  | unary (op : String) (operand : String)
  | logicOnNonBoolean
  | concatOnNonWaveform
  | sampleCount (generator : String)
  | notFinite
  | negativeDuration (samples : Float)
  | tooLong (samples : Float)
  | notDuration (found : String)
  | notWaveform (found : String)
  | rangeBound (found : String)
  | zeroStep
  | tooManyIterations (limit : Nat)
  deriving Repr, Inhabited

namespace EvalError

/-- Dynamic errors depend on run time; the others are invalid operations. -/
def isDynamic : EvalError → Bool
  | unknownSymbol _ | callResult _ => true
  | _ => false

/-- The message of an error. -/
def message : EvalError → String
  | unknownSymbol n => "`" ++ n ++ "` is not known at compile time"
  | callResult n => "result of `" ++ n ++ "` is not known at compile time"
  | overflow => "integer overflow"
  | arith op => op.name ++ " is not defined on these operands"
  | compare op => "cannot compare with " ++ op.name
  | unary op v => "`" ++ op ++ "` is not defined for " ++ v
  | logicOnNonBoolean => "boolean operator on non-boolean"
  | concatOnNonWaveform => "`++` on non-waveforms"
  | sampleCount g => "`" ++ g ++ "` needs a non-negative integer number of samples"
  | notFinite => "duration is not finite"
  | negativeDuration s => "negative duration " ++ Float.programText s ++ " dt"
  | tooLong s => "duration " ++ Float.programText s ++ " dt is too long"
  | notDuration v => "expected a duration, found " ++ v
  | notWaveform v => "expected a waveform, found " ++ v
  | rangeBound v => "range bound " ++ v ++ " is not an integer"
  | zeroStep => "range step is zero"
  | tooManyIterations n => "range has more than " ++ toString n ++ " iterations"

end EvalError

/-- Values of the symbols seen so far; `none` marks a symbol whose value is dynamic. -/
abbrev Env := Std.HashMap SymbolId (Option Value)

/-- The integer if it lies in the signed 64-bit range. -/
def Int.inWordRange (n : Int) : Option Int :=
  if int64Min ≤ n ∧ n ≤ int64Max then some n else none

/-- Exact power of an integer within the 64-bit range. A base of magnitude two or more
overflows from the exponent 64 on, so the power is only computed below it. -/
def Int.powChecked (a : Int) (e : Nat) : Option Int :=
  if a = 0 then some (if e = 0 then 1 else 0)
  else if a = 1 then some 1
  else if a = -1 then some (if e % 2 = 0 then 1 else -1)
  else if e ≥ 64 then none
  else Int.inWordRange (Int.pow a e)

/-- Largest exponent of an unsigned 32-bit word. -/
def uint32Max : Int := Int.pow 2 32 - 1

namespace Fold

/-- Arithmetic on two integers. -/
def intArith (op : ArithOp) (a b : Int) : Except EvalError Value :=
  let checked (n : Int) : Except EvalError Value :=
    match Int.inWordRange n with
    | some n => .ok (.int n)
    | none => .error .overflow
  match op with
  | .add => checked (a + b)
  | .sub => checked (a - b)
  | .mul => checked (a * b)
  | .div =>
    if b = 0 then .error (.arith op)
    else if Int.inWordRange (a.tdiv b) |>.isSome then
      if a.tmod b = 0 then .ok (.int (a.tdiv b))
      else .ok (.float (Float.ofInt a / Float.ofInt b))
    else .ok (.float (Float.ofInt a / Float.ofInt b))
  | .mod =>
    if b = 0 then .error (.arith op)
    else if (Int.inWordRange (a.tdiv b)).isNone then .error .overflow
    else .ok (.int (a.tmod b))
  | .pow =>
    if 0 ≤ b ∧ b ≤ uint32Max then
      match Int.powChecked a b.toNat with
      | some n => .ok (.int n)
      | none => .error .overflow
    else .ok (.float (Float.pow (Float.ofInt a) (Float.ofInt b)))

/-- Arithmetic on two doubles. -/
def floatArith (op : ArithOp) (a b : Float) : Except EvalError Value :=
  match op with
  | .add => .ok (.float (a + b))
  | .sub => .ok (.float (a - b))
  | .mul => .ok (.float (a * b))
  | .div => if b != 0.0 then .ok (.float (a / b)) else .error (.arith op)
  | .mod => if b != 0.0 then .ok (.float (Float.remainder a b)) else .error (.arith op)
  | .pow => .ok (.float (Float.pow a b))

/-- Arithmetic on two complex numbers. -/
def complexArith (op : ArithOp) (x y : Float × Float) : Except EvalError Value :=
  let (a, b) := x
  let (c, d) := y
  match op with
  | .add => .ok (.complex (a + c) (b + d))
  | .sub => .ok (.complex (a - c) (b - d))
  | .mul => .ok (.complex (a * c - b * d) (a * d + b * c))
  | .div =>
    let norm := c * c + d * d
    if norm == 0.0 then .error (.arith op)
    else .ok (.complex ((a * c + b * d) / norm) ((b * c - a * d) / norm))
  | _ => .error (.arith op)

/-- Whether a value is complex. -/
def isComplex : Value → Bool
  | .complex .. => true
  | _ => false

/-- Arithmetic on two values. Durations are matched first, then complex numbers, then pairs
of integers; everything else is computed on doubles. -/
def arith (op : ArithOp) (left right : Value) : Except EvalError Value :=
  let invalid : Except EvalError Value := .error (.arith op)
  match left, right with
  | .duration a, .duration b =>
    match op with
    | .add => .ok (.duration (a + b))
    | .sub => .ok (.duration (a - b))
    | .div => if b != 0.0 then .ok (.float (a / b)) else invalid
    | _ => invalid
  | .duration a, scalar =>
    match scalar.asFloat? with
    | none => invalid
    | some x =>
      match op with
      | .mul => .ok (.duration (a * x))
      | .div => if x != 0.0 then .ok (.duration (a / x)) else invalid
      | _ => invalid
  | scalar, .duration b =>
    match scalar.asFloat? with
    | none => invalid
    | some x => if op == .mul then .ok (.duration (x * b)) else invalid
  | l, r =>
    if isComplex l || isComplex r then
      match l.asComplex?, r.asComplex? with
      | some x, some y => complexArith op x y
      | _, _ => invalid
    else
      match l, r with
      | .int a, .int b => intArith op a b
      | _, _ =>
        match l.asFloat?, r.asFloat? with
        | some a, some b => floatArith op a b
        | _, _ => invalid

/-- Comparison of two durations or two numbers. -/
def compare (op : CmpOp) (left right : Value) : Except EvalError Value :=
  let pair : Option (Float × Float) :=
    match left, right with
    | .duration a, .duration b => some (a, b)
    | l, r =>
      match l.asFloat?, r.asFloat? with
      | some a, some b => some (a, b)
      | _, _ => none
  match pair with
  | none => .error (.compare op)
  | some (a, b) =>
    .ok <| .bool <| match op with
      | .eq => a == b
      | .neq => a != b
      | .lt => a < b
      | .gt => a > b
      | .le => a ≤ b
      | .ge => a ≥ b

/-- A binary operation on two folded operands. -/
def binary (op : BinaryOp) (left right : Value) : Except EvalError Value :=
  match op with
  | .arith op => arith op left right
  | .cmp op => compare op left right
  | .logic op =>
    match left.asBool?, right.asBool? with
    | some l, some r => .ok (.bool (match op with | .and => l && r | .or => l || r))
    | _, _ => .error .logicOnNonBoolean
  | .concat =>
    match left.asWaveform?, right.asWaveform? with
    | some l, some r => .ok (.waveform (l.concat r))
    | _, _ => .error .concatOnNonWaveform

/-- A unary operation on a folded operand. -/
def unary (op : UnaryOp) (v : Value) : Except EvalError Value :=
  match op, v with
  | .neg, .int n =>
    match Int.inWordRange (-n) with
    | some m => .ok (.int m)
    | none => .error .overflow
  | .neg, .float x => .ok (.float (-x))
  | .neg, .duration x => .ok (.duration (-x))
  | .neg, .complex re im => .ok (.complex (-re) (-im))
  | .not, v =>
    match v.asBool? with
    | some b => .ok (.bool (!b))
    | none => .error (.unary "!" v.fragment)
  | .neg, v => .error (.unary "-" v.fragment)

/-- What folding needs besides the expression: the generators, the sample rate that turns
times into samples, and the values of symbols. -/
structure Context where
  registry : Registry
  sampleRate : Float
  env : Env

/-- The value of a literal; durations in a time unit become samples at the sample rate. -/
def literal (ctx : Context) : Literal → Value
  | .bool b => .bool b
  | .int n => .int n
  | .float x => .float x
  | .imaginary x => .complex 0.0 x
  | .duration v u =>
    match u.perSecond with
    | none => .duration v
    | some ps => .duration (v * ctx.sampleRate / ps)

/-- A waveform from a generator and its folded arguments: the length is the argument named
`samples`, or else the first, and must be a non-negative whole number. -/
def generate (g : Generator) (args : List Value) : Except EvalError Value :=
  let at_ := (g.signature.indexOf? samplesParam).getD 0
  match (args[at_]?).bind Value.asInt? with
  | some n =>
    if n ≥ 0 then
      .ok (.waveform ⟨WaveformInfo.generatedKey g.name (args.map Value.fragment), n.toNat⟩)
    else .error (.sampleCount g.name)
  | none => .error (.sampleCount g.name)

mutual
/-- The value of an expression. -/
def eval (ctx : Context) : Expr → Except EvalError Value
  | .lit l => .ok (literal ctx l)
  | .ident i =>
    match i.symbol.bind ctx.env.get? with
    | some (some v) => .ok v
    | some none => .error (.unknownSymbol i.name)
    | none =>
      match builtinValue? i.name with
      | some x => .ok (.float x)
      | none => .error (.unknownSymbol i.name)
  | .binary op l r => do
    let a ← eval ctx l
    let b ← eval ctx r
    binary op a b
  | .unary op e => do
    let v ← eval ctx e
    unary op v
  | .call name args =>
    match ctx.registry.get? name.name with
    | none => .error (.callResult name.name)
    | some g => do
      let vs ← evalList ctx args
      generate g vs
  | .array items => do
    let vs ← evalList ctx items
    pure (.array vs)

/-- Values of a list of expressions, stopping at the first error. -/
def evalList (ctx : Context) : List Expr → Except EvalError (List Value)
  | [] => .ok []
  | e :: rest => do
    let v ← eval ctx e
    let vs ← evalList ctx rest
    pure (v :: vs)
end

end Fold

/-- Least rounding, in samples, that is reported. -/
def roundingTolerance : Float := 1e-6

/-- A duration in samples rounded to a whole number of samples (halves away from zero), and
whether the rounding moved it by more than the tolerance. Refuses durations that are not
finite, negative after rounding, or not below `2^64`, the range of a 64-bit counter.

The rounding is done once, on the decoded value. A double with a fractional part lies below
`2^53`, so its rounded value converts back to a double exactly and the difference is the
one the rounding made; a double without one is its own rounding and moves by nothing. -/
def roundSamples (samples : Float) : Except EvalError (Nat × Bool) :=
  match FloatShape.ofFloat samples with
  | .finite b =>
    let (n, whole) := b.roundWhole
    if b.negative && n != 0 then .error (.negativeDuration samples)
    else if n ≥ Nat.pow 2 64 then .error (.tooLong samples)
    else if whole then .ok (n, false)
    else .ok (n, Float.abs (samples - n.toUInt64.toFloat) > roundingTolerance)
  | _ => .error .notFinite

namespace Fold

/-- A duration expression in whole samples, with the rounding flag. -/
def durationSamples (ctx : Context) (e : Expr) : Except EvalError (Nat × Bool) := do
  match ← eval ctx e with
  | .duration s => roundSamples s
  | v => .error (.notDuration v.fragment)

/-- A waveform expression: a waveform or an array of samples. -/
def waveform (ctx : Context) (e : Expr) : Except EvalError WaveformInfo := do
  let v ← eval ctx e
  match v.asWaveform? with
  | some w => pure w
  | none => .error (.notWaveform v.fragment)

end Fold

end PulseCompiler
