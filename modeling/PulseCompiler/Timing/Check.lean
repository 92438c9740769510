import PulseCompiler.Timing.Warning
import PulseCompiler.Timeline.Event
import Std.Data.HashMap
set_option autoImplicit false

/-!
# Checking timed events

`TimingConfig.check` goes through the timed events of a run and warns about every duration
that is shorter than the minimum length or not a multiple of the granularity. An event of
zero samples emits nothing and breaks no rule; a granularity of zero imposes none. A
statement evaluated several times with the same duration is checked once, at its first
evaluation.
-/

namespace PulseCompiler

/-- The hardware's timing constraints, in samples. -/
structure TimingConfig where
  minimumLength : Nat := 32
  granularity : Nat := 16
  deriving Repr, DecidableEq, Inhabited

namespace TimingConfig

/-- The warnings for one event: first the minimum length, then the granularity. -/
def checkEvent (cfg : TimingConfig) (e : TimedEvent) : List TimingWarning :=
  if e.duration = 0 then []
  else
    let warn (r : TimingRule) : TimingWarning := ⟨r, e.stmt, e.range, e.duration⟩
    (if e.duration < cfg.minimumLength then [warn (.belowMinimum cfg.minimumLength)] else []) ++
    (if cfg.granularity > 0 && e.duration % cfg.granularity != 0 then
      [warn (.misaligned cfg.granularity)] else [])

/-- The events that are the first of their statement with their duration; the pairs seen
so far are kept as the keys of a map. -/
def firstOfEach (events : List TimedEvent) : List TimedEvent :=
  (events.foldl (fun (acc : Array TimedEvent × Std.HashMap (Nat × Nat) Unit) e =>
      if acc.2.contains (e.stmt, e.duration) then acc
      else (acc.1.push e, acc.2.insert (e.stmt, e.duration) ())) (#[], {})).1.toList

/-- The warnings for a run's events, in event order. -/
def check (cfg : TimingConfig) (events : List TimedEvent) : List TimingWarning :=
  (firstOfEach events).flatMap cfg.checkEvent

end TimingConfig

end PulseCompiler
