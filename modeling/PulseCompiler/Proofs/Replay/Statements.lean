import PulseCompiler.Proofs.Replay.Simulation
set_option autoImplicit false

/-!
# Every statement replays as its annotated copy

A run in record mode and a run in replay mode of the annotated program take the same steps
on the same state, save for the two tables a replay keeps apart: its callables hold annotated
bodies, and it reads barrier times from cursors. This module goes through the resolver's
statements one kind at a time. Most steps never look at those two tables and replay as
themselves; a barrier reads back the time it recorded; a definition stores the annotated
body; a call or a loop runs, on the replay side, the annotated body of what the recording ran,
and asks whether a block takes time, or what it writes, of a block that answers the same.

The statements of a block are then handled by one structural induction, given that the
runs of call bodies replay.
-/

namespace PulseCompiler

/-- A loop's values are computed from the registry, the sample rate and the environment;
whether the run records or replays does not enter. -/
theorem Run.loopValues_mode (reg : Registry) (rate : Float) (mode mode' : SyncMode) (env : Env)
    (it : Iteration) :
    Run.loopValues ⟨reg, rate, mode⟩ env it = Run.loopValues ⟨reg, rate, mode'⟩ env it := by
  cases it <;> rfl

section Statements

variable {durations : Std.HashMap Nat SampleRange} {times : Std.HashMap Nat (List Nat)}
variable (reg : Registry) (rate : Float) (label : String)

namespace Simulates

/-- A definition replays as the definition of the annotated callable. -/
theorem define (s : SymbolId) (c : Callable) :
    Simulates durations times
      (modify fun r => { r with callables := r.callables.insert s c })
      (modify fun r =>
        { r with callables := r.callables.insert s (c.annotate durations times) }) where
  grows _ _ _ h := by
    cases h
    exact List.prefix_refl _
  tracks := by
    intro recorded replayed a recorded' fresh future h log follows
    obtain ⟨callables, cursors, rfl⟩ := follows.eq_hide
    cases h
    have no_fresh : fresh = [] := by simpa using log
    subst no_fresh
    refine ⟨_, rfl, ?_⟩
    exact {
      visible := rfl
      callables := fun s' => by
        by_cases here : s = s'
        · subst here
          simp
        · simpa [Std.HashMap.getElem?_insert, here] using follows.callables s'
      cursor := follows.cursor
      annotated := follows.annotated }

end Simulates

/-- A step that refuses to skip a block that takes time refuses on the replay exactly when it
does on the recording: the annotated block takes time when the block does, and the two runs
know the same callables. -/
theorem Simulates.unlessTimed (stmts : List Stmt) (e : SemanticError)
    {k k' : Unit → RunM Unit} (hk : Simulates durations times (k ()) (k' ())) :
    Simulates durations times
      (MonadState.get >>= fun r =>
        if Run.hasTimingEffect r stmts = true then (MonadExcept.throw e : RunM Unit) >>= k
        else k ())
      (MonadState.get >>= fun r =>
        if Run.hasTimingEffect r (Stmt.annotateList durations times stmts) = true then
          (MonadExcept.throw e : RunM Unit) >>= k'
        else k' ()) := by
  refine Simulates.get_bind_follows fun future recorded replayed follows => ?_
  rw [Run.hasTimingEffect_annotateList, Run.hasTimingEffect_congr follows.contains]
  split
  · exact (Simulates.of_oblivious (Oblivious.throw e)).bind fun () => hk
  · exact hk

/-- Whether a `while` loop may run is decided by what the recording and the replay share:
the condition's value, and whether the body takes time, which depends on the callables only
through which are known. -/
theorem whileLoop_simulates (stmt : Nat) (range : TextRange) (cond : Expr)
    (bodyStmts : List Stmt) :
    Simulates durations times (Run.whileLoop ⟨reg, rate, .record⟩ stmt range cond bodyStmts)
      (Run.whileLoop ⟨reg, rate, .replay label⟩ stmt range cond
        (Stmt.annotateList durations times bodyStmts)) := by
  unfold Run.whileLoop
  refine (Simulates.of_oblivious (Run.fold_oblivious _ cond)).bind fun val => ?_
  split
  · exact Simulates.of_oblivious (Run.recordDuration_oblivious stmt 0)
  · refine Simulates.unlessTimed bodyStmts _ ?_
    simp only [Run.invalidate_annotateList]
    exact Simulates.of_oblivious ((Run.invalidate_oblivious bodyStmts).bind fun _ =>
      Run.recordDuration_oblivious stmt 0)

/-- A `for` loop replays as the loop over its annotated body when the body does. -/
theorem forLoop_simulates (stmt : Nat) (range : TextRange) (var : Ident) (it : Iteration)
    (bodyStmts : List Stmt) {bodyR bodyP : RunM Unit}
    (hbody : Simulates durations times bodyR bodyP) :
    Simulates durations times
      (Run.forLoop ⟨reg, rate, .record⟩ stmt range var it bodyStmts bodyR)
      (Run.forLoop ⟨reg, rate, .replay label⟩ stmt range var it
        (Stmt.annotateList durations times bodyStmts) bodyP) := by
  unfold Run.forLoop
  refine (Simulates.of_oblivious (Run.symbolOf_oblivious var)).bind fun v => ?_
  refine Simulates.get_bind (fun r => ?_) fun _ _ _ => rfl
  rw [Run.loopValues_mode reg rate (.replay label) .record]
  split
  · refine Simulates.unlessTimed bodyStmts _ ?_
    simp only [Run.invalidate_annotateList]
    exact Simulates.of_oblivious ((Run.bind_oblivious v none).bind fun _ =>
      Run.invalidate_oblivious bodyStmts)
  · refine (Simulates.of_oblivious (Oblivious.modify (fun _ _ _ => by rfl) fun _ => by rfl)).bind
      fun _ => Simulates.get_bind (fun r => ?_) fun _ _ _ => rfl
    have trip : ∀ x : Value, Simulates durations times
        (do Run.bind v (some x); bodyR; pure (ForInStep.yield PUnit.unit))
        (do Run.bind v (some x); bodyP; pure (ForInStep.yield PUnit.unit)) := fun x =>
      (Simulates.of_oblivious (Run.bind_oblivious v (some x))).bind fun _ =>
        hbody.bind fun _ => Simulates.pure _
    exact (Simulates.forIn _ _ fun x _ => trip x).bind fun _ =>
      Simulates.of_oblivious (Oblivious.get_bind (fun _ => Run.recordDuration_oblivious _ _)
        fun _ _ _ => rfl)

/-- An `if` replays as the `if` of the annotated branches when the branches do. -/
theorem branch_simulates (stmt : Nat) (range : TextRange) (cond : Expr)
    {thenR thenP elseR elseP : RunM Unit} (hthen : Simulates durations times thenR thenP)
    (helse : Simulates durations times elseR elseP) :
    Simulates durations times (Run.branch ⟨reg, rate, .record⟩ stmt range cond thenR elseR)
      (Run.branch ⟨reg, rate, .replay label⟩ stmt range cond thenP elseP) := by
  unfold Run.branch
  refine Simulates.get_bind (fun r => ?_) fun _ _ _ => rfl
  extract_lets before finish
  refine (Simulates.of_oblivious (Run.fold_oblivious _ cond)).bind fun val => ?_
  have finished : Oblivious (finish ()) :=
    Oblivious.get_bind (fun _ => Run.recordDuration_oblivious _ _) fun _ _ _ => rfl
  split
  · exact hthen.bind fun _ => Simulates.of_oblivious finished
  · exact helse.bind fun _ => Simulates.of_oblivious finished
  · refine Simulates.get_bind (fun r => ?_) fun _ _ _ => rfl
    refine hthen.bind fun _ => Simulates.get_bind (fun r' => ?_) fun _ _ _ => rfl
    exact (Simulates.of_oblivious (Oblivious.modify (fun _ _ _ => by rfl) fun _ => by rfl)).bind
      fun _ => helse.bind fun _ => Simulates.of_oblivious
        (Oblivious.get_setMachine (fun m => !r'.machine.clocks.agree m.clocks)
          (·.merge r'.machine) _ finished)

variable {runR runP : List Stmt → RunM Unit}

/-- A call replays as the call of the annotated callable the replay defined. -/
theorem invoke_simulates
    (hbody : ∀ stmts, Simulates durations times (runR stmts)
      (runP (Stmt.annotateList durations times stmts)))
    (name : Ident) (args : List Expr) (range : TextRange) :
    Simulates durations times (Run.invoke runR ⟨reg, rate, .record⟩ name args range)
      (Run.invoke runP ⟨reg, rate, .replay label⟩ name args range) := by
  unfold Run.invoke
  refine (Simulates.of_oblivious (Run.symbolOf_oblivious name)).bind fun sym => ?_
  refine Simulates.get_bind_follows fun future recorded replayed follows => ?_
  rw [follows.callables sym]
  cases recorded.callables.get? sym with
  | none => exact Simulates.of_oblivious (Oblivious.throw _)
  | some c =>
    dsimp -zeta only [Option.map_some, Callable.annotate]
    refine Simulates.get_bind (fun r => ?_) fun _ _ _ => rfl
    extract_lets callR callP
    have call : ∀ u, Simulates durations times (callR u) (callP u) := by
      intro u
      refine (Simulates.of_oblivious (Oblivious.forIn _ _ fun x _ => ?_)).bind fun _ => ?_
      · split
        · exact Oblivious.pure _
        · split
          · split
            · exact (Run.resolveFrame_oblivious _).bind fun _ =>
                (Run.modifyMachine_oblivious _).bind fun _ => Oblivious.pure _
            · exact Oblivious.pure _
          · exact (Run.fold_oblivious _ _).bind fun _ =>
              (Run.bind_oblivious _ _).bind fun _ => Oblivious.pure _
      · refine Simulates.get_bind (fun _ => ?_) fun _ _ _ => rfl
        exact (Simulates.of_oblivious (Oblivious.modify (fun _ _ _ => by rfl) fun _ => by rfl)).bind
          fun _ => (hbody c.body).bind fun _ =>
            (Simulates.of_oblivious (Oblivious.modify (fun _ _ _ => by rfl) fun _ => by rfl)).bind
              fun _ => Simulates.get_bind (fun _ => Simulates.pure _) fun _ _ _ => rfl
    split
    · exact (Simulates.of_oblivious (Oblivious.throw _)).bind call
    · exact call ()

/-- An expression replays as itself: it is a call on both sides or on neither, since the two
runs know the same callables. -/
theorem inlineCall_simulates
    (hbody : ∀ stmts, Simulates durations times (runR stmts)
      (runP (Stmt.annotateList durations times stmts))) (e : Expr) (range : TextRange) :
    Simulates durations times (Run.inlineCall runR ⟨reg, rate, .record⟩ e range)
      (Run.inlineCall runP ⟨reg, rate, .replay label⟩ e range) := by
  unfold Run.inlineCall
  split
  · split
    · refine Simulates.get_bind_follows fun future recorded replayed follows => ?_
      rw [follows.contains]
      split
      · exact (invoke_simulates reg rate label hbody _ _ range).map some
      · exact Simulates.pure none
    · exact Simulates.pure none
  · exact Simulates.pure none

mutual
theorem execStmt_simulates
    (hbody : ∀ stmts, Simulates durations times (runR stmts)
      (runP (Stmt.annotateList durations times stmts))) : ∀ s : Stmt,
    Simulates durations times (Run.execStmt ⟨reg, rate, .record⟩ runR s)
      (Run.execStmt ⟨reg, rate, .replay label⟩ runP (Stmt.annotate durations times s))
  | .mk id range _ kind => by
    simp only [Run.execStmt, Stmt.annotate]
    exact execKind_simulates hbody id range kind

theorem execKind_simulates
    (hbody : ∀ stmts, Simulates durations times (runR stmts)
      (runP (Stmt.annotateList durations times stmts)))
    (id : Nat) (range : TextRange) : ∀ k : StmtKind,
    Simulates durations times (Run.execKind ⟨reg, rate, .record⟩ runR id range k)
      (Run.execKind ⟨reg, rate, .replay label⟩ runP id range
        (StmtKind.annotate durations times id k))
  | .grammar _ | .port _ | .output .. | .ret _ => Simulates.pure ()
  | .frame name _ f p => Simulates.of_oblivious (Run.declareFrame_oblivious _ name f p)
  | .waveform name value _ => Simulates.of_oblivious (Run.declareWaveform_oblivious _ id name value)
  | .declare name _ (some e) =>
    (Simulates.of_oblivious (Run.symbolOf_oblivious name)).bind fun s =>
      (inlineCall_simulates reg rate label hbody e range).bind fun _ =>
        (Simulates.of_oblivious (Run.fold_oblivious _ e)).bind fun v =>
          Simulates.of_oblivious (Run.bind_oblivious s v)
  | .declare name _ none =>
    (Simulates.of_oblivious (Run.symbolOf_oblivious name)).bind fun s =>
      Simulates.of_oblivious (Run.bind_oblivious s none)
  | .input name _ =>
    (Simulates.of_oblivious (Run.symbolOf_oblivious name)).bind fun s =>
      Simulates.of_oblivious (Run.bind_oblivious s none)
  | .subroutine name params _ body | .defcal name params _ _ body =>
    (Simulates.of_oblivious (Run.symbolOf_oblivious name)).bind fun s =>
      Simulates.define s ⟨params, body⟩
  | .cal body => execBlock_simulates hbody body
  | .gate name args _ =>
    (invoke_simulates reg rate label hbody name args range).bind fun t =>
      Simulates.of_oblivious (Run.recordDuration_oblivious id t)
  | .expr e => (inlineCall_simulates reg rate label hbody e range).bind fun
    | some t => Simulates.of_oblivious (Run.recordDuration_oblivious id t)
    | none => Simulates.pure ()
  | .assign target op value =>
    (inlineCall_simulates reg rate label hbody value range).bind fun _ =>
      (Simulates.of_oblivious (Run.symbolOf_oblivious target)).bind fun s =>
        match op with
        | none => (Simulates.of_oblivious (Run.fold_oblivious _ value)).bind fun v =>
          Simulates.of_oblivious (Run.bind_oblivious s v)
        | some _ => (Simulates.of_oblivious (Run.fold_oblivious _ _)).bind fun v =>
          Simulates.of_oblivious (Run.bind_oblivious s v)
  | .forLoop var _ it body =>
    forLoop_simulates reg rate label id range var it body (execBlock_simulates hbody body)
  | .whileLoop cond body => whileLoop_simulates reg rate label id range cond body
  | .branch cond t (some e) =>
    branch_simulates reg rate label id range cond (execBlock_simulates hbody t)
      (execBlock_simulates hbody e)
  | .branch cond t none =>
    branch_simulates reg rate label id range cond (execBlock_simulates hbody t) (Simulates.pure ())
  | .delay d frames => Simulates.of_oblivious (Run.delay_oblivious _ id range d frames)
  | .play f w => Simulates.of_oblivious (Run.pulse_oblivious _ id range .play f w)
  | .capture f w => Simulates.of_oblivious (Run.pulse_oblivious _ id range .capture f w)
  | .barrier frames recorded => barrier_simulates reg rate label id range frames recorded
  | .update op f v => Simulates.of_oblivious (Run.update_oblivious _ id op f v)

theorem execBlock_simulates
    (hbody : ∀ stmts, Simulates durations times (runR stmts)
      (runP (Stmt.annotateList durations times stmts))) : ∀ b : List Stmt,
    Simulates durations times (Run.execBlock ⟨reg, rate, .record⟩ runR b)
      (Run.execBlock ⟨reg, rate, .replay label⟩ runP (Stmt.annotateList durations times b))
  | [] => Simulates.pure ()
  | s :: rest => by
    simp only [Run.execBlock, Stmt.annotateList]
    exact (execStmt_simulates hbody s).bind fun _ => execBlock_simulates hbody rest
end

end Statements

end PulseCompiler
