import PulseCompiler.Value.Basic
import PulseCompiler.Program.Expr
set_option autoImplicit false

/-!
# Timeline events

What running a program through its clocks records: every evaluation of a delay, play or
capture with the frames it took and when; every barrier with the time it synchronized to and
the longest wait it inserted; every waveform played or captured; and the frequency and phase
of each frame where they are known before run time.
-/

namespace PulseCompiler

/-- The statements that take time of their own. -/
inductive TimedKind where
  | delay | play | capture
  deriving Repr, DecidableEq, Inhabited

/-- The keyword of a timed statement. -/
def TimedKind.name : TimedKind → String
  | .delay => "delay"
  | .play => "play"
  | .capture => "capture"

/-- One evaluation of a timed statement: the frames it occupied, from `start` for `duration`
samples. -/
structure TimedEvent where
  stmt : Nat
  range : TextRange
  kind : TimedKind
  frames : List String
  start : Nat
  duration : Nat
  deriving Repr, Inhabited

/-- One evaluation of a barrier: the frames it joined, the time they were set to, and the
longest wait it inserted on any of them. -/
structure BarrierSync where
  stmt : Nat
  frames : List String
  time : Nat
  padding : Nat
  deriving Repr, Inhabited

/-- A waveform played or captured on a frame. -/
structure WaveformEvent where
  stmt : Nat
  frame : String
  waveform : WaveformInfo
  deriving Repr, Inhabited

/-- Frequency and phase of a frame, each when known before run time. -/
structure FrameState where
  frequency : Option Float := none
  phase : Option Float := none
  deriving Repr, Inhabited

namespace FrameState

/-- States are equal when both parts are; doubles compare by value, so an unknown part
equals only an unknown part and `NaN` equals nothing. -/
def same (a b : FrameState) : Bool :=
  a.frequency == b.frequency && a.phase == b.phase

end FrameState

end PulseCompiler
