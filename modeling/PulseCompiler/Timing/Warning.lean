import PulseCompiler.Program.Expr
set_option autoImplicit false

/-!
# Timing warnings

A sequencer plays durations of at least a minimum length and in steps of a granularity, both
in samples; durations given in time units should also come to whole samples. Breaking one of
these rules is a warning, tied to the statement and the duration it took.
-/

namespace PulseCompiler

/-- The timing rule a duration breaks. -/
inductive TimingRule where
  | belowMinimum (minimum : Nat)
  | misaligned (granularity : Nat)
  /-- A duration in time units that is not a whole number of samples. -/
  | nonIntegral
  deriving Repr, DecidableEq, Inhabited

/-- The name of the rule in reports. -/
def TimingRule.name : TimingRule → String
  | .belowMinimum _ => "BelowMinimumLength"
  | .misaligned _ => "Misaligned"
  | .nonIntegral => "NonIntegralDuration"

/-- A broken timing rule, with the statement, its range and the duration in samples. -/
structure TimingWarning where
  rule : TimingRule
  stmt : Nat
  range : TextRange
  duration : Nat
  deriving Repr, DecidableEq, Inhabited

/-- The message of a warning. -/
def TimingWarning.message (w : TimingWarning) : String :=
  match w.rule with
  | .belowMinimum m =>
    "duration of " ++ toString w.duration ++ " samples is below the minimum of " ++ toString m
  | .misaligned g =>
    "duration of " ++ toString w.duration ++ " samples is not a multiple of " ++ toString g
  | .nonIntegral =>
    "duration is not a whole number of samples, rounded to " ++ toString w.duration

end PulseCompiler
