import PulseCompiler.Timeline.Report
import PulseCompiler.Program.Stmt
set_option autoImplicit false

/-!
# Program reports

Whole-program figures read off a program after its durations are resolved: how many shots
and sweep steps it declares through the constants `n_shots` and `n_steps`, the largest
product of trip counts along a nest of `for` loops, the elapsed samples of every frame, and
the longest delay in a `measure` defcal that ran.
-/

namespace PulseCompiler

/-- Name of the constant that declares the number of shots. -/
def shotsName : String := "n_shots"

/-- Name of the constant that declares the sweep steps. -/
def stepsName : String := "n_steps"

/-- Name of the defcal whose delays bound the readout latency. -/
def measureName : String := "measure"

/-- The number of shots and the sweep steps of a program. -/
structure Shots where
  shots : Nat := 1
  steps : List Nat := [1]
  deriving Repr, DecidableEq, Inhabited

/-- Whole-program figures. -/
structure ProgramReport where
  shots : Shots := {}
  repetitions : Nat := 0
  frameElapsed : List (String × Nat) := []
  maxMeasureDelay : Option Nat := none
  deriving Repr, Inhabited

/-- Counts are limited to 64 bits. -/
def countLimit : Nat := Nat.pow 2 64

/-- An integer literal that is a count. -/
def Expr.count? : Expr → Option Nat
  | .lit (.int n) => if 0 ≤ n ∧ n < countLimit then some n.toNat else none
  | _ => none

namespace Shots

/-- Reads one declaration: an integer literal `n_shots` sets the shots; `n_steps` set to an
integer literal, or an array of them, sets the steps. Anything else changes nothing. -/
def read (sig : Shots) (s : Stmt) : Shots :=
  match s.kind with
  | .declare name _ (some init) =>
    if name.name == shotsName then
      match init.count? with
      | some n => { sig with shots := n }
      | none => sig
    else if name.name == stepsName then
      let steps := match init with
        | .array items => items.mapM Expr.count?
        | e => e.count?.map ([·])
      match steps with
      | some st => { sig with steps := st }
      | none => sig
    else sig
  | _ => sig

/-- The shots and steps a program declares; the last declaration in pre-order wins. -/
def ofProgram (p : Program) : Shots :=
  (Stmt.walkList p).foldl read {}

end Shots

/-- Products of trip counts saturate at the largest 64-bit count. -/
def saturatingMul (a b : Nat) : Nat := Nat.min (a * b) (countLimit - 1)

mutual
/-- The largest product of trip counts along a nest of `for` loops in a statement. -/
def Stmt.repetitions (trips : List (Nat × Nat)) : Stmt → Nat
  | .mk id _ _ kind =>
    let inner := StmtKind.blockRepetitions trips kind
    match kind with
    | .forLoop .. => saturatingMul (((trips.find? (·.1 == id)).map (·.2)).getD 1) inner
    | _ => inner

/-- The largest repetitions of the blocks of a statement (an `if` without `else` has one
block), `1` without blocks. -/
def StmtKind.blockRepetitions (trips : List (Nat × Nat)) : StmtKind → Nat
  | .subroutine _ _ _ b | .defcal _ _ _ _ b | .cal b | .forLoop _ _ _ b | .whileLoop _ b =>
    Stmt.listRepetitions trips b
  | .branch _ t e =>
    match e with
    | some b => Nat.max (Stmt.listRepetitions trips t) (Stmt.listRepetitions trips b)
    | none => Stmt.listRepetitions trips t
  | _ => 1

/-- The largest repetitions of the statements of a block, `1` for an empty block. -/
def Stmt.listRepetitions (trips : List (Nat × Nat)) : List Stmt → Nat
  | [] => 1
  | [s] => Stmt.repetitions trips s
  | s :: rest => Nat.max (Stmt.repetitions trips s) (Stmt.listRepetitions trips rest)
end

/-- The longest resolved delay inside a defcal named `measure`; delays of a defcal that
never ran have no duration and do not count. -/
def longestMeasureDelay (p : Program) : Option Nat :=
  (Stmt.walkList p).foldl (fun acc s =>
    match s.kind with
    | .defcal name _ _ _ body =>
      if name.name == measureName then
        (Stmt.walkList body).foldl (fun acc d =>
          match d.kind, d.duration with
          | .delay .., some r => some (Nat.max (acc.getD 0) r.max)
          | _, _ => acc) acc
      else acc
    | _ => acc) none

/-- The figures of a resolved program. -/
def ProgramReport.of (p : Program) (clocks : ClockReport) : ProgramReport :=
  { shots := Shots.ofProgram p
    repetitions := Stmt.listRepetitions clocks.loopTrips p
    frameElapsed := clocks.finalClocks
    maxMeasureDelay := longestMeasureDelay p }

end PulseCompiler
