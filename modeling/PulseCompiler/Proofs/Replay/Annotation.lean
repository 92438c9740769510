import PulseCompiler.Timeline.Resolve
set_option autoImplicit false

/-!
# What annotating a program keeps

`Stmt.annotate` writes durations and barrier times onto a program and changes nothing else:
the same statements stand in the same places, with the same kinds, names and expressions.
So every question a run asks about a block of statements gets the same answer on the
annotated block: whether it takes time, what it writes, how many subroutines and defcals it
defines.

The barrier times a recording writes are `Run.syncTimes`, the times of the barrier log
gathered by statement; `timesAt` reads them straight off the log.
-/

namespace PulseCompiler

variable (durations : Std.HashMap Nat SampleRange) (times : Std.HashMap Nat (List Nat))

mutual
/-- The pre-order walk of an annotated statement is the annotated walk. -/
theorem Stmt.walk_annotate : ∀ s : Stmt,
    (Stmt.annotate durations times s).walk = s.walk.map (Stmt.annotate durations times)
  | .mk id range d kind => by
    simp only [Stmt.annotate, Stmt.walk, List.map_cons, StmtKind.walkBlocks_annotate id kind]

/-- The statements nested in an annotated kind are the annotated nested statements. -/
theorem StmtKind.walkBlocks_annotate (id : Nat) : ∀ k : StmtKind,
    (StmtKind.annotate durations times id k).walkBlocks =
      k.walkBlocks.map (Stmt.annotate durations times)
  | .subroutine _ _ _ b | .defcal _ _ _ _ b | .cal b | .forLoop _ _ _ b | .whileLoop _ b => by
    simp only [StmtKind.annotate, StmtKind.walkBlocks, Stmt.walkList_annotateList b]
  | .branch _ t (some e) => by
    simp only [StmtKind.annotate, StmtKind.walkBlocks, Stmt.walkList_annotateList t,
      Stmt.walkList_annotateList e, List.map_append]
  | .branch _ t none => by
    simp only [StmtKind.annotate, StmtKind.walkBlocks, Stmt.walkList_annotateList t,
      List.map_append, List.map_nil]
  | .grammar _ | .port _ | .frame .. | .waveform .. | .declare .. | .input .. | .output ..
  | .gate .. | .expr _ | .assign .. | .ret _ | .delay .. | .play .. | .capture ..
  | .barrier .. | .update .. => rfl

/-- The pre-order walk of an annotated block is the annotated walk. -/
theorem Stmt.walkList_annotateList : ∀ b : List Stmt,
    Stmt.walkList (Stmt.annotateList durations times b) =
      (Stmt.walkList b).map (Stmt.annotate durations times)
  | [] => rfl
  | s :: rest => by
    simp only [Stmt.annotateList, Stmt.walkList, List.map_append, Stmt.walk_annotate s,
      Stmt.walkList_annotateList rest]
end

@[simp] theorem Stmt.kind_annotate (s : Stmt) :
    (Stmt.annotate durations times s).kind = StmtKind.annotate durations times s.id s.kind := by
  cases s
  rfl

@[simp] theorem Stmt.id_annotate (s : Stmt) : (Stmt.annotate durations times s).id = s.id := by
  cases s
  rfl

namespace Run

/-- Whether a block takes time depends on the run only through which callables it knows. -/
theorem hasTimingEffect_congr {r r' : Run}
    (known : ∀ s, r'.callables.contains s = r.callables.contains s) (stmts : List Stmt) :
    hasTimingEffect r' stmts = hasTimingEffect r stmts := by
  simp only [hasTimingEffect, callsSubroutine, known]

theorem hasTimingEffect_annotateList (r : Run) (stmts : List Stmt) :
    hasTimingEffect r (Stmt.annotateList durations times stmts) = hasTimingEffect r stmts := by
  simp only [hasTimingEffect, Stmt.walkList_annotateList, List.any_map]
  congr 1
  funext s
  obtain ⟨id, range, d, kind⟩ := s
  cases kind <;> rfl

theorem invalidate_annotateList (stmts : List Stmt) :
    invalidate (Stmt.annotateList durations times stmts) = invalidate stmts := by
  simp only [invalidate, Stmt.walkList_annotateList, List.filterMap_map, Function.comp_def]
  congr 1
  · congr 2
    funext s
    obtain ⟨id, range, d, kind⟩ := s
    cases kind <;> rfl
  · funext u
    congr 3
    funext s
    obtain ⟨id, range, d, kind⟩ := s
    cases kind <;> rfl

theorem definitionCount_annotateList (p : Program) :
    definitionCount (Stmt.annotateList durations times p) = definitionCount p := by
  simp only [definitionCount, Stmt.walkList_annotateList, List.countP_map]
  congr 1
  funext s
  obtain ⟨id, range, d, kind⟩ := s
  cases kind <;> rfl

end Run

/-- The times a barrier log records for one statement, in the order they were logged. -/
def timesAt (log : List BarrierSync) (stmt : Nat) : List Nat :=
  (log.filter (·.stmt == stmt)).map (·.time)

@[simp] theorem timesAt_nil (stmt : Nat) : timesAt [] stmt = [] := rfl

theorem timesAt_cons (b : BarrierSync) (log : List BarrierSync) (stmt : Nat) :
    timesAt (b :: log) stmt =
      if b.stmt == stmt then b.time :: timesAt log stmt else timesAt log stmt := by
  by_cases h : b.stmt = stmt <;> simp [timesAt, h]

theorem timesAt_append (log log' : List BarrierSync) (stmt : Nat) :
    timesAt (log ++ log') stmt = timesAt log stmt ++ timesAt log' stmt := by
  simp [timesAt, List.filter_append]

namespace Run

/-- `syncTimes` gathers the barrier log by statement: each statement that has a barrier in the
log gets its times in order, and no other statement gets any. -/
theorem syncTimes_spec (r : Run) (stmt : Nat) :
    r.syncTimes.getD stmt [] = timesAt r.barriers.toList stmt ∧
      (r.syncTimes.contains stmt = r.barriers.toList.any (·.stmt == stmt)) := by
  rw [syncTimes, ← Array.foldr_toList]
  induction r.barriers.toList with
  | nil => simp
  | cons b log ih =>
    simp only [List.foldr_cons, Std.HashMap.getD_insert, Std.HashMap.contains_insert,
      timesAt_cons, List.any_cons, ← ih.1, ← ih.2]
    by_cases h : b.stmt = stmt
    · subst h
      simp
    · simp [h]

theorem syncTimes_getD (r : Run) (stmt : Nat) :
    r.syncTimes.getD stmt [] = timesAt r.barriers.toList stmt :=
  (syncTimes_spec r stmt).1

theorem syncTimes_contains {r : Run} {b : BarrierSync} (hb : b ∈ r.barriers.toList) :
    r.syncTimes.contains b.stmt = true := by
  rw [(syncTimes_spec r b.stmt).2, List.any_eq_true]
  exact ⟨b, hb, by simp⟩

end Run

end PulseCompiler
