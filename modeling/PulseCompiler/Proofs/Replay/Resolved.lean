import PulseCompiler.Proofs.Replay.Statements
set_option autoImplicit false

/-!
# Replaying a resolved program reproduces its report

`Program.resolve` runs a program in record mode and writes onto it the samples each statement
took and the times each barrier synchronized at. `Program.replay` runs such an annotated
program again, holding every barrier to its recorded times. Replaying the annotation of a
resolution gives back exactly the report of the resolution, for every label: the replay
never finds a frame past a recorded time, never runs out of recorded times, and ends with
the same clocks, frame states, barriers, events, waveforms, loop trips and warnings.

The proof runs the two resolutions side by side. Calls nest at most as deep as the program
has definitions, the same number for the program and its annotation, so both runs get the
same depth, and an induction on it lifts the statement-by-statement simulation to calls.
At the start the replay has read no recorded time, and the times still ahead of it are the
whole barrier log the recording ends with.
-/

namespace PulseCompiler

variable {durations : Std.HashMap Nat SampleRange} {times : Std.HashMap Nat (List Nat)}

/-- A block run with calls nested at most `depth` deep replays as its annotated copy. -/
theorem Run.runBlock_simulates (reg : Registry) (rate : Float) (label : String) :
    ∀ (depth : Nat) (stmts : List Stmt),
      Simulates durations times (Run.runBlock ⟨reg, rate, .record⟩ depth stmts)
        (Run.runBlock ⟨reg, rate, .replay label⟩ depth (Stmt.annotateList durations times stmts))
  | 0, _ => Simulates.of_oblivious (Oblivious.throw _)
  | depth + 1, stmts =>
    execBlock_simulates reg rate label (runBlock_simulates reg rate label depth) stmts

/-- A fresh replay follows a fresh recording whose barrier log is still all ahead of it,
when the annotation holds the times of that log. -/
theorem Replays.start (durations : Std.HashMap Nat SampleRange) (r : Run) :
    Replays durations r.syncTimes r.barriers.toList {} {} where
  visible := rfl
  callables _ := by simp
  cursor stmt := by simpa using Run.syncTimes_getD r stmt
  annotated _ mem := Run.syncTimes_contains mem

/-- The report reads neither the callables nor the replay cursors. -/
@[simp] theorem Run.report_hide (r : Run) (c : Std.HashMap SymbolId Callable)
    (t : Std.HashMap Nat (List Nat)) : (r.hide c t).report = r.report := rfl

/-- Replaying the annotation of a successful resolution succeeds, under every label, with
the report of the resolution. -/
theorem Program.replay_of_resolve (registry : Registry) (rate : Float) (label : String)
    (p : Program) {annotated : Program} {report : ClockReport}
    (resolved : Program.resolve registry rate p = .ok (report, annotated)) :
    Program.replay registry rate label annotated = .ok report := by
  unfold Program.resolve at resolved
  cases recorded : Program.run ⟨registry, rate, .record⟩ p with
  | error e =>
    rw [recorded] at resolved
    exact nomatch resolved
  | ok r =>
    rw [recorded] at resolved
    cases resolved
    unfold Program.run at recorded
    cases run : (Run.runBlock ⟨registry, rate, .record⟩ (Run.definitionCount p + 1) p).run {} with
    | error e =>
      rw [run] at recorded
      exact nomatch recorded
    | ok last =>
      obtain ⟨u, final⟩ := last
      rw [run] at recorded
      cases recorded
      obtain ⟨replayed, replay, follows⟩ :=
        (Run.runBlock_simulates registry rate label (Run.definitionCount p + 1) p).tracks
          {} {} u final final.barriers.toList [] run (by simp)
          (by simpa using Replays.start final.durations final)
      obtain ⟨c, t, rfl⟩ := follows.eq_hide
      unfold Program.replay Program.run
      rw [Run.definitionCount_annotateList, replay]
      rfl

/-- A barrier on all frames, and another inside a calibration block. -/
def twoBarriers : Program :=
  [⟨0, {}, none, .barrier none []⟩, ⟨1, {}, none, .cal [⟨2, {}, none, .barrier none []⟩]⟩]

/-- The recorded run of `twoBarriers`. -/
def twoBarriersRun : Run :=
  ((Program.run ⟨Registry.empty, 1.0, .record⟩ twoBarriers).toOption).getD {}

theorem Program.replay_of_resolve_twoBarriers :
    Program.resolve Registry.empty 1.0 twoBarriers =
        .ok (twoBarriersRun.report,
          Stmt.annotateList twoBarriersRun.durations twoBarriersRun.syncTimes twoBarriers) ∧
      Program.replay Registry.empty 1.0 "core"
          (Stmt.annotateList twoBarriersRun.durations twoBarriersRun.syncTimes twoBarriers) =
        .ok twoBarriersRun.report :=
  ⟨by rfl, Program.replay_of_resolve Registry.empty 1.0 "core" twoBarriers (by rfl)⟩

end PulseCompiler
