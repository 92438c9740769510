import PulseCompiler.Timeline.Event
import PulseCompiler.Timing.Warning
set_option autoImplicit false

/-!
# Clock reports

A `ClockReport` is what a run of a program through its frame clocks found: the final clock
and the known frequency and phase of each frame, named and ordered by frame name; the
barrier synchronizations, timed events and waveform events in the order they happened; the
distinct values of each waveform declaration and the largest trip count of each `for` loop,
ordered by statement; and the warnings about durations that are not whole samples.
-/

namespace PulseCompiler

/-- Entries of a table ordered by name: a new entry replaces one of the same name. -/
def insertByName {α : Type} (k : String) (v : α) : List (String × α) → List (String × α)
  | [] => [(k, v)]
  | (k', v') :: rest =>
    if k < k' then (k, v) :: (k', v') :: rest
    else if k == k' then (k, v) :: rest
    else (k', v') :: insertByName k v rest

/-- The entries of a table keyed by statement number, in increasing order of the number. -/
def byStatement {α : Type} (entries : List (Nat × α)) : List (Nat × α) :=
  entries.mergeSort fun a b => a.1 ≤ b.1

/-- What a run of a program through its frame clocks found. -/
structure ClockReport where
  finalClocks : List (String × Nat) := []
  frameStates : List (String × FrameState) := []
  barriers : List BarrierSync := []
  events : List TimedEvent := []
  waveforms : List WaveformEvent := []
  declaredWaveforms : List (Nat × List WaveformInfo) := []
  loopTrips : List (Nat × Nat) := []
  warnings : List TimingWarning := []
  deriving Repr, Inhabited

namespace ClockReport

/-- The final clock of a frame, by name. -/
def clock? (r : ClockReport) (frame : String) : Option Nat :=
  (r.finalClocks.find? (·.1 == frame)).map (·.2)

/-- The time at which the last frame finishes. -/
def totalDuration (r : ClockReport) : Nat :=
  r.finalClocks.foldl (fun m p => Nat.max m p.2) 0

end ClockReport

end PulseCompiler
