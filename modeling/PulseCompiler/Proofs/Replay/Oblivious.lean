import PulseCompiler.Timeline.Resolve
set_option autoImplicit false

/-!
# Steps that ignore the callables and the replay cursors

A run carries two tables that most of its steps never look at: the subroutines and defcals
defined so far, and the recorded barrier times that a replay has not used yet. A recording
and a replay of the same program differ in exactly these two tables, so every step that
neither reads nor writes them behaves the same in both.

`Run.hide` puts other tables into a run, and a computation is `Oblivious` when running it on
a run with other tables gives the same result with the same tables put in, and when it logs
no barrier. The lemmas below close the property under the monad's operations and prove it
for every step of `Timeline.Resolve` except those that call, define or synchronize.
-/

namespace PulseCompiler

namespace Run

/-- The same run with other callables and other replay cursors. -/
def hide (r : Run) (callables : Std.HashMap SymbolId Callable)
    (cursors : Std.HashMap Nat (List Nat)) : Run :=
  { r with callables := callables, replayTimes := cursors }

variable (r : Run) (c : Std.HashMap SymbolId Callable) (t : Std.HashMap Nat (List Nat))

@[simp] theorem hide_machine : (r.hide c t).machine = r.machine := rfl
@[simp] theorem hide_callables : (r.hide c t).callables = c := rfl
@[simp] theorem hide_replayTimes : (r.hide c t).replayTimes = t := rfl
@[simp] theorem hide_callStack : (r.hide c t).callStack = r.callStack := rfl
@[simp] theorem hide_barriers : (r.hide c t).barriers = r.barriers := rfl

@[simp] theorem hide_self : r.hide r.callables r.replayTimes = r := rfl

@[simp] theorem hide_hide (c' : Std.HashMap SymbolId Callable)
    (t' : Std.HashMap Nat (List Nat)) : (r.hide c t).hide c' t' = r.hide c' t' := rfl

end Run

/-- A sequence of two steps succeeds exactly when the first does and the second succeeds from
where the first ended. -/
theorem run_bind_eq_ok {α β : Type} {x : RunM α} {f : α → RunM β} {r r'' : Run} {b : β} :
    (x >>= f).run r = .ok (b, r'') ↔
      ∃ a r', x.run r = .ok (a, r') ∧ (f a).run r' = .ok (b, r'') := by
  rw [StateT.run_bind]
  cases hx : x.run r with
  | error e => exact ⟨fun h => (nomatch h), fun ⟨_, _, h, _⟩ => (nomatch h)⟩
  | ok p =>
    exact ⟨fun h => ⟨p.1, p.2, rfl, h⟩, fun ⟨a, r', h, hf⟩ => by cases h; exact hf⟩

/-- A computation that ignores the callables and the replay cursors: run on a run with other
tables it gives the same value and the same run with those tables, and it logs no barrier. -/
structure Oblivious {α : Type} (x : RunM α) : Prop where
  run_hide : ∀ r c t, x.run (r.hide c t) = (x.run r).map fun p => (p.1, p.2.hide c t)
  barriers : ∀ r a r', x.run r = .ok (a, r') → r'.barriers = r.barriers

namespace Oblivious

variable {α β : Type}

theorem tables {x : RunM α} (h : Oblivious x) {r r' : Run} {a : α}
    (hx : x.run r = .ok (a, r')) :
    r'.callables = r.callables ∧ r'.replayTimes = r.replayTimes := by
  have same := h.run_hide r r.callables r.replayTimes
  rw [Run.hide_self, hx] at same
  injection same with same
  injection same with _ keep
  constructor
  · rw [keep]; rfl
  · rw [keep]; rfl

theorem pure (a : α) : Oblivious (Pure.pure a : RunM α) :=
  ⟨fun _ _ _ => rfl, fun _ _ _ h => by cases h; rfl⟩

theorem throw (e : SemanticError) : Oblivious (MonadExcept.throw e : RunM α) :=
  ⟨fun _ _ _ => rfl, fun _ _ _ h => nomatch h⟩

theorem throw_bind (e : SemanticError) (f : α → RunM β) :
    Oblivious (MonadExcept.throw e >>= f) :=
  ⟨fun _ _ _ => rfl, fun _ _ _ h => nomatch h⟩

theorem bind {x : RunM α} {f : α → RunM β} (hx : Oblivious x) (hf : ∀ a, Oblivious (f a)) :
    Oblivious (x >>= f) := by
  constructor
  · intro r c t
    rw [StateT.run_bind, StateT.run_bind, hx.run_hide]
    cases x.run r with
    | error e => rfl
    | ok p => exact (hf p.1).run_hide p.2 c t
  · intro r b r' h
    rw [StateT.run_bind] at h
    cases hr : x.run r with
    | error e => rw [hr] at h; exact nomatch h
    | ok p =>
      rw [hr] at h
      exact ((hf p.1).barriers _ _ _ h).trans (hx.barriers _ _ _ hr)

/-- A change of the run that commutes with putting in other tables and keeps the barrier
log. -/
theorem modify {f : Run → Run} (hf : ∀ r c t, f (r.hide c t) = (f r).hide c t)
    (hb : ∀ r, (f r).barriers = r.barriers) : Oblivious (modify f : RunM PUnit) := by
  constructor
  · intro r c t
    show Except.ok (PUnit.unit, f (r.hide c t)) = Except.ok (PUnit.unit, (f r).hide c t)
    rw [hf]
  · intro r a r' h
    cases h
    exact hb r

/-- Reading the run is oblivious when what follows reads neither table. -/
theorem get_bind {k : Run → RunM α} (hk : ∀ r, Oblivious (k r))
    (hv : ∀ r c t, k (r.hide c t) = k r) : Oblivious (MonadState.get >>= k) := by
  constructor
  · intro r c t
    show (k (r.hide c t)).run (r.hide c t) = ((k r).run r).map _
    rw [hv]
    exact (hk r).run_hide r c t
  · intro r a r' h
    exact (hk r).barriers r a r' h

/-- Reading the run and writing it back with another machine, unless the machine read makes
the step fail, is oblivious: the tables written back are the ones just read. -/
theorem get_setMachine (fails : Machine → Bool) (g : Machine → Machine) (e : SemanticError)
    {k : Unit → RunM α} (hk : Oblivious (k ())) :
    Oblivious (MonadState.get >>= fun r =>
      if fails r.machine = true then
        (MonadExcept.throw e : RunM Unit) >>= fun _ =>
          MonadState.set { r with machine := g r.machine } >>= k
      else MonadState.set { r with machine := g r.machine } >>= k) := by
  constructor
  · intro r c t
    simp only [StateT.run_bind, StateT.run_get, pure_bind, Run.hide_machine]
    by_cases failed : fails r.machine = true
    · simp only [failed, ↓reduceIte]
      rfl
    · simp only [failed, Bool.false_eq_true, ↓reduceIte, StateT.run_bind]
      exact hk.run_hide { r with machine := g r.machine } c t
  · intro r a r' h
    simp only [StateT.run_bind, StateT.run_get, pure_bind] at h
    split at h
    · exact nomatch h
    · simp only [StateT.run_bind] at h
      exact hk.barriers { r with machine := g r.machine } a r' h

theorem forIn {γ : Type} (xs : List γ) (b : β) {f : γ → β → RunM (ForInStep β)}
    (hf : ∀ x b, Oblivious (f x b)) : Oblivious (ForIn.forIn xs b f) := by
  induction xs generalizing b with
  | nil => exact pure b
  | cons x xs ih =>
    rw [List.forIn_cons]
    refine (hf x b).bind fun step => ?_
    cases step with
    | done b' => exact pure b'
    | yield b' => exact ih b'

theorem mapM {γ : Type} (xs : List γ) {f : γ → RunM β} (hf : ∀ x, Oblivious (f x)) :
    Oblivious (xs.mapM f) := by
  induction xs with
  | nil => exact pure []
  | cons x xs ih =>
    rw [List.mapM_cons]
    exact (hf x).bind fun b => ih.bind fun bs => pure (b :: bs)

end Oblivious

namespace Run

theorem symbolOf_oblivious (i : Ident) : Oblivious (symbolOf i) := by
  unfold symbolOf
  split
  · exact Oblivious.pure _
  · exact Oblivious.throw _

theorem modifyMachine_oblivious (f : Machine → Machine) : Oblivious (modifyMachine f) :=
  Oblivious.modify (fun _ _ _ => rfl) fun _ => rfl

theorem bind_oblivious (s : SymbolId) (v : Option Value) : Oblivious (bind s v) :=
  modifyMachine_oblivious _

theorem fold_oblivious (ctx : RunSetting) (e : Expr) : Oblivious (fold ctx e) :=
  Oblivious.get_bind (fun _ => Oblivious.pure _) fun _ _ _ => rfl

theorem recordDuration_oblivious (stmt samples : Nat) : Oblivious (recordDuration stmt samples) :=
  Oblivious.modify (fun _ _ _ => rfl) fun _ => rfl

theorem warnNonIntegral_oblivious (stmt : Nat) (range : TextRange) (samples : Nat) :
    Oblivious (warnNonIntegral stmt range samples) := by
  refine Oblivious.modify (fun r c t => ?_) fun r => ?_
  all_goals
    cases seen : r.warnings.contains ⟨.nonIntegral, stmt, range, samples⟩ <;>
      simp only [hide, seen, Bool.false_eq_true, ↓reduceIte]

theorem resolveFrame_oblivious (i : Ident) : Oblivious (resolveFrame i) := by
  unfold resolveFrame
  refine (symbolOf_oblivious i).bind fun s => Oblivious.get_bind (fun r => ?_) fun _ _ _ => rfl
  dsimp only
  split
  · exact Oblivious.pure _
  · exact Oblivious.throw _

theorem resolveFrames_oblivious (is : List Ident) : Oblivious (resolveFrames is) :=
  Oblivious.mapM is resolveFrame_oblivious

theorem advance_oblivious (frame : SymbolId) (samples : Nat) (range : TextRange) :
    Oblivious (advance frame samples range) := by
  constructor
  · intro r c t
    simp only [advance, StateT.run_bind, StateT.run_get, pure_bind, hide_machine]
    split <;> rfl
  · intro r a r' h
    simp only [advance, StateT.run_bind, StateT.run_get, pure_bind] at h
    split at h
    · cases h; rfl
    · cases h

theorem waveformOf_oblivious (ctx : RunSetting) (e : Expr) (declaredAs : String) :
    Oblivious (waveformOf ctx e declaredAs) :=
  Oblivious.get_bind (fun _ => Oblivious.pure _) fun _ _ _ => rfl

theorem invalidate_oblivious (stmts : List Stmt) : Oblivious (invalidate stmts) := by
  unfold invalidate
  refine (Oblivious.forIn _ _ fun s _ => ?_).bind fun _ =>
    (Oblivious.forIn _ _ fun f _ => ?_).bind fun _ => Oblivious.pure _
  · exact (bind_oblivious s none).bind fun _ => Oblivious.pure _
  · exact (modifyMachine_oblivious _).bind fun _ => Oblivious.pure _

theorem declareFrame_oblivious (ctx : RunSetting) (name : Ident) (frequency phase : Expr) :
    Oblivious (declareFrame ctx name frequency phase) := by
  unfold declareFrame
  refine (symbolOf_oblivious name).bind fun f => ?_
  refine (Oblivious.modify (fun _ _ _ => by rfl) fun _ => by rfl).bind fun _ => ?_
  exact (fold_oblivious ctx frequency).bind fun _ => (fold_oblivious ctx phase).bind fun _ =>
    modifyMachine_oblivious _

theorem declareWaveform_oblivious (ctx : RunSetting) (stmt : Nat) (name : Ident)
    (value : Expr) : Oblivious (declareWaveform ctx stmt name value) := by
  unfold declareWaveform
  refine (symbolOf_oblivious name).bind fun s => (waveformOf_oblivious ..).bind fun w => ?_
  cases w with
  | ok w =>
    exact (Oblivious.modify (fun _ _ _ => by rfl) fun _ => by rfl).bind fun _ =>
      bind_oblivious s _
  | error _ => exact bind_oblivious s none

theorem delay_oblivious (ctx : RunSetting) (stmt : Nat) (range : TextRange) (duration : Expr)
    (frames : List Ident) : Oblivious (delay ctx stmt range duration frames) := by
  unfold delay
  refine Oblivious.get_bind (fun r => ?_) fun _ _ _ => rfl
  extract_lets env afterSamples
  have samples_ok : ∀ p, Oblivious (afterSamples p) := by
    rintro ⟨samples, rounded⟩
    dsimp -zeta only [afterSamples]
    extract_lets afterFrames afterWarning
    have frames_ok : ∀ fs, Oblivious (afterFrames fs) := fun fs =>
      Oblivious.get_bind (fun _ => (Oblivious.forIn _ _ fun f _ =>
          (advance_oblivious f samples range).bind fun _ => Oblivious.pure _).bind fun _ =>
        (Oblivious.modify (fun _ _ _ => by rfl) fun _ => by rfl).bind fun _ =>
          recordDuration_oblivious stmt samples) fun _ _ _ => rfl
    have warning_ok : ∀ u, Oblivious (afterWarning u) := by
      intro u
      dsimp only [afterWarning]
      split
      · exact Oblivious.get_bind (fun _ => (Oblivious.pure _).bind frames_ok) fun _ _ _ => rfl
      · exact (resolveFrames_oblivious frames).bind frames_ok
    split
    · exact (warnNonIntegral_oblivious stmt range samples).bind warning_ok
    · exact warning_ok ()
  split
  · exact (Oblivious.pure _).bind samples_ok
  · exact Oblivious.throw_bind _ _

theorem pulse_oblivious (ctx : RunSetting) (stmt : Nat) (range : TextRange) (kind : TimedKind)
    (frame : Ident) (waveform : Expr) : Oblivious (pulse ctx stmt range kind frame waveform) := by
  unfold pulse
  refine (resolveFrame_oblivious frame).bind fun f => (waveformOf_oblivious ..).bind fun w => ?_
  extract_lets afterWaveform
  have waveform_ok : ∀ w, Oblivious (afterWaveform w) := fun w =>
    (advance_oblivious f _ range).bind fun _ =>
      (Oblivious.modify (fun _ _ _ => by rfl) fun _ => by rfl).bind fun _ =>
        recordDuration_oblivious stmt _
  split
  · exact (Oblivious.pure _).bind waveform_ok
  · exact Oblivious.throw_bind _ _

theorem update_oblivious (ctx : RunSetting) (stmt : Nat) (op : FrameOp) (frame : Ident)
    (value : Expr) : Oblivious (update ctx stmt op frame value) :=
  (resolveFrame_oblivious frame).bind fun _ => (fold_oblivious ctx value).bind fun _ =>
    (modifyMachine_oblivious _).bind fun _ => recordDuration_oblivious stmt 0

end Run

end PulseCompiler
