import PulseCompiler.Program.Stmt
set_option autoImplicit false

/-!
# Built-in programs

Programs are not read from text here, so the command line compiles programs that are built
in. Each shows one feature of the compiler:

* `two-delays`: two frames on two cores delayed by different amounts, then synchronized by a
  barrier;
* `split-measure`: a measurement whose drive half runs on one core and whose readout half runs
  on another, joined by a barrier inside a subroutine;
* `input-delay`: a delay whose length is an `input`, known only when a value is supplied.
-/

namespace PulseCompiler

/-- The built-in programs. -/
inductive Demo where
  | twoDelays
  | splitMeasure
  | inputDelay
  deriving Repr, DecidableEq, Inhabited

namespace Demo

/-- Every built-in program, in the order they are listed. -/
def all : List Demo := [.twoDelays, .splitMeasure, .inputDelay]

/-- The name a program is chosen by. -/
def name : Demo → String
  | .twoDelays => "two-delays"
  | .splitMeasure => "split-measure"
  | .inputDelay => "input-delay"

/-- What a program shows. -/
def about : Demo → String
  | .twoDelays => "Two frames delayed by different amounts, then synchronized"
  | .splitMeasure => "A measurement split between a drive core and a readout core"
  | .inputDelay => "A delay whose length is an `input`"

/-- The program of a name. -/
def named? (n : String) : Option Demo := all.find? (·.name == n)

end Demo

namespace Demo

/-- A name without a source range or symbol. -/
def ident (n : String) : Ident := { name := n }

/-- `frame name = newframe(port, 5e9, 0.0);` -/
def frame (n port : String) : Stmt :=
  .ofKind (.frame (ident n) (ident port) (.lit (.float 5e9)) (.lit (.float 0.0)))

/-- A `cal` block. -/
def cal (body : List Stmt) : Stmt := .ofKind (.cal body)

/-- `defcalgrammar "openpulse";` -/
def grammar : Stmt := .ofKind (.grammar "openpulse")

/-- A delay of one frame. -/
def delay (d : Expr) (f : String) : Stmt := .ofKind (.delay d [ident f])

/-- A barrier over the named frames. -/
def barrier (fs : List String) : Stmt := .ofKind (.barrier (some (fs.map ident)) [])

/-- Port declarations. -/
def ports (ns : List String) : List Stmt := ns.map fun n => .ofKind (.port (ident n))

/-- `defcal measure $q { body }` -/
def measureCal (q : Nat) (body : List Stmt) : Stmt :=
  .ofKind (.defcal (ident "measure") [] [.hardware q] none body)

/-- `measure $q;` -/
def measure (q : Nat) : Stmt := .ofKind (.gate (ident "measure") [] [.hardware q])

/-- The statements of a built-in program. -/
def program : Demo → Program
  | .twoDelays =>
    [grammar,
     cal (ports ["ch1", "ch2"] ++ [frame "frame1" "ch1", frame "frame2" "ch2"]),
     cal [delay (.lit (.duration 4.0 .ns)) "frame1", delay (.lit (.duration 2.0 .ns)) "frame2",
       barrier ["frame1", "frame2"]]]
  | .splitMeasure =>
    let gauss := Expr.call (ident "gauss")
      [.lit (.int 64), .lit (.float 0.5), .lit (.int 32), .lit (.float 8.0)]
    [grammar,
     cal (ports ["ch1", "ro"] ++
       [frame "drive" "ch1", frame "readout" "ro",
        .ofKind (.waveform (ident "drive_wf") gauss none),
        .ofKind (.waveform (ident "readout_wf") (.call (ident "ones") [.lit (.int 128)]) none)]),
     measureCal 0 [.ofKind (.play (ident "drive") (.ident (ident "drive_wf")))],
     measureCal 1 [.ofKind (.capture (ident "readout") (.ident (ident "readout_wf")))],
     .ofKind (.subroutine (ident "measure_all") [] none
       [measure 0, barrier ["drive", "readout"], measure 1]),
     .ofKind (.expr (.call (ident "measure_all") []))]
  | .inputDelay =>
    [grammar,
     .ofKind (.input (ident "wait") (.duration false)),
     cal (ports ["ch1"] ++ [frame "frame1" "ch1"]),
     cal [delay (.ident (ident "wait")) "frame1"]]

end Demo

end PulseCompiler
