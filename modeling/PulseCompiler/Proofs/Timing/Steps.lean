import PulseCompiler.Proofs.Timing.Clocks
import PulseCompiler.Proofs.Replay.Oblivious
set_option autoImplicit false

/-!
# The resolver's steps

What each step of `Timeline.Resolve` does to the parts of a run that timing depends on: the
clocks, the known values, the frames that frame parameters stand for, the callables, the call
stack and the frame names (`Run.Timing`). Steps that only log (durations, events, warnings,
frame states) are `Quiet`: they change none of these. Each lemma below reads a successful run of
one step back as a statement about its result and the timing it leaves.
-/

namespace PulseCompiler

/-- The parts of a run that timing depends on. -/
structure Run.Timing where
  clocks : FrameClocks
  env : Env
  aliases : Std.HashMap SymbolId SymbolId
  callables : Std.HashMap SymbolId Callable
  callStack : List SymbolId
  frameNames : Std.HashMap SymbolId String

namespace Run

/-- The parts of a run that timing depends on. -/
def timing (r : Run) : Timing :=
  ⟨r.machine.clocks, r.machine.env, r.machine.aliases, r.callables, r.callStack, r.frameNames⟩

@[simp] theorem timing_clocks (r : Run) : r.timing.clocks = r.machine.clocks := rfl
@[simp] theorem timing_env (r : Run) : r.timing.env = r.machine.env := rfl
@[simp] theorem timing_aliases (r : Run) : r.timing.aliases = r.machine.aliases := rfl
@[simp] theorem timing_callables (r : Run) : r.timing.callables = r.callables := rfl
@[simp] theorem timing_callStack (r : Run) : r.timing.callStack = r.callStack := rfl
@[simp] theorem timing_frameNames (r : Run) : r.timing.frameNames = r.frameNames := rfl

/-- A step that changes nothing timing depends on. -/
def Quiet {α : Type} (x : RunM α) : Prop :=
  ∀ r a r', x.run r = .ok (a, r') → r'.timing = r.timing

namespace Quiet

variable {α β : Type}

theorem pure (a : α) : Quiet (Pure.pure a : RunM α) := fun _ _ _ h => by
  cases h
  rfl

theorem bind {x : RunM α} {f : α → RunM β} (hx : Quiet x) (hf : ∀ a, Quiet (f a)) :
    Quiet (x >>= f) := fun r b r'' h => by
  obtain ⟨a, r', h₁, h₂⟩ := run_bind_eq_ok.mp h
  rw [hf a r' b r'' h₂, hx r a r' h₁]

theorem modify {f : Run → Run} (hf : ∀ r, (f r).timing = r.timing) :
    Quiet (modify f : RunM PUnit) := fun r _ _ h => by
  cases h
  exact hf r

end Quiet

theorem recordDuration_quiet (stmt samples : Nat) : Quiet (recordDuration stmt samples) :=
  Quiet.modify fun _ => rfl

theorem warnNonIntegral_quiet (stmt : Nat) (range : TextRange) (samples : Nat) :
    Quiet (warnNonIntegral stmt range samples) := Quiet.modify fun r => by
  dsimp only
  split <;> rfl

/-! ### Reading the run -/

theorem symbolOf_run {i : Ident} {r r' : Run} {s : SymbolId}
    (h : (symbolOf i).run r = .ok (s, r')) : i.symbol = some s ∧ r' = r := by
  unfold symbolOf at h
  split at h
  · cases h
    exact ⟨by assumption, rfl⟩
  · cases h

theorem symbolOf_quiet (i : Ident) : Quiet (symbolOf i) := fun _ _ _ h => by
  rw [(symbolOf_run h).2]

theorem bind_run (s : SymbolId) (v : Option Value) (r : Run) :
    (bind s v).run r =
      .ok ((), { r with machine := { r.machine with env := r.machine.env.insert s v } }) := rfl

theorem fold_run (ctx : RunSetting) (e : Expr) (r : Run) :
    (fold ctx e).run r =
      .ok ((Fold.eval ⟨ctx.registry, ctx.sampleRate, r.machine.env⟩ e).toOption, r) := rfl

theorem fold_quiet (ctx : RunSetting) (e : Expr) : Quiet (fold ctx e) := fun r _ _ h => by
  rw [fold_run] at h
  cases h
  rfl

/-- The declared frame an identifier names, looking through frame parameters. -/
def Timing.frameOf? (t : Timing) (i : Ident) : Option SymbolId :=
  i.symbol.bind fun s =>
    let f := (t.aliases[s]?).getD s
    if t.clocks.contains f then some f else none

theorem get_run (r : Run) : (MonadState.get : RunM Run).run r = .ok (r, r) := rfl

theorem get_bind_run {α : Type} {k : Run → RunM α} {r r' : Run} {a : α}
    (h : (MonadState.get >>= k).run r = .ok (a, r')) : (k r).run r = .ok (a, r') := by
  obtain ⟨m, r₁, hm, h⟩ := run_bind_eq_ok.mp h
  rw [get_run] at hm
  cases hm
  exact h

theorem resolveFrame_run {i : Ident} {r r' : Run} {f : SymbolId}
    (h : (resolveFrame i).run r = .ok (f, r')) : r.timing.frameOf? i = some f ∧ r' = r := by
  unfold resolveFrame at h
  obtain ⟨s, r₁, hs, rest⟩ := run_bind_eq_ok.mp h
  obtain ⟨hs, rfl⟩ := symbolOf_run hs
  have found := get_bind_run rest
  dsimp only at found
  split at found
  · cases found
    refine ⟨?_, rfl⟩
    simp_all [Timing.frameOf?]
  · cases found

theorem resolveFrames_run {is : List Ident} {r r' : Run} {fs : List SymbolId}
    (h : (resolveFrames is).run r = .ok (fs, r')) :
    is.mapM r.timing.frameOf? = some fs ∧ r' = r := by
  induction is generalizing fs r' with
  | nil =>
    cases h
    exact ⟨rfl, rfl⟩
  | cons i rest ih =>
    simp only [resolveFrames, List.mapM_cons] at h
    obtain ⟨f, r₁, hf, rest⟩ := run_bind_eq_ok.mp h
    obtain ⟨hf, rfl⟩ := resolveFrame_run hf
    obtain ⟨fs', r₂, hfs, last⟩ := run_bind_eq_ok.mp rest
    obtain ⟨hfs, rfl⟩ := ih hfs
    cases last
    simp [hf, hfs]

/-! ### Advancing clocks -/

theorem advance_run {f : SymbolId} {n : Nat} {range : TextRange} {r r' : Run} {start : Nat}
    (h : (advance f n range).run r = .ok (start, r')) :
    r.machine.clocks.advance f n = some (start, r'.machine.clocks) ∧
      r'.timing = { r.timing with clocks := r'.machine.clocks } := by
  unfold advance at h
  have step := get_bind_run h
  dsimp only at step
  split at step
  · rename_i hadv
    obtain ⟨u, r₁, hset, hpure⟩ := run_bind_eq_ok.mp step
    cases hset
    cases hpure
    exact ⟨hadv, rfl⟩
  · cases step

/-- Advancing frames one after the other is `FrameClocks.advanceEach`. -/
theorem advanceAll_run {fs : List SymbolId} {n : Nat} {range : TextRange} {r r' : Run}
    {u : PUnit}
    (h : (forIn fs PUnit.unit fun f _ => do
        let _ ← advance f n range
        pure (ForInStep.yield PUnit.unit) : RunM PUnit).run r = .ok (u, r')) :
    r.machine.clocks.advanceEach fs n = some r'.machine.clocks ∧
      r'.timing = { r.timing with clocks := r'.machine.clocks } := by
  induction fs generalizing r with
  | nil =>
    cases h
    exact ⟨rfl, rfl⟩
  | cons f rest ih =>
    rw [List.forIn_cons] at h
    obtain ⟨step, r₁, hstep, hrest⟩ := run_bind_eq_ok.mp h
    obtain ⟨start, r₂, hadv, hyield⟩ := run_bind_eq_ok.mp hstep
    cases hyield
    obtain ⟨hadv, t₁⟩ := advance_run hadv
    obtain ⟨hrest, t₂⟩ := ih hrest
    refine ⟨by simp [FrameClocks.advanceEach, hadv, hrest], ?_⟩
    rw [t₂, t₁]

/-! ### Declarations -/

theorem modifyMachine_run (g : Machine → Machine) (r : Run) :
    (modifyMachine g).run r = .ok ((), { r with machine := g r.machine }) := rfl

theorem declareFrame_run {ctx : RunSetting} {name : Ident} {f p : Expr} {r r' : Run} {u : Unit}
    (h : (declareFrame ctx name f p).run r = .ok (u, r')) :
    ∃ s, name.symbol = some s ∧
      r'.timing = { r.timing with
        clocks := r.machine.clocks.declare s
        frameNames := r.frameNames.insert s name.name } := by
  unfold declareFrame at h
  obtain ⟨s, r₁, hs, rest⟩ := run_bind_eq_ok.mp h
  obtain ⟨named, rfl⟩ := symbolOf_run hs
  obtain ⟨u₁, r₂, hdecl, rest⟩ := run_bind_eq_ok.mp rest
  cases hdecl
  obtain ⟨x, r₃, hx, rest⟩ := run_bind_eq_ok.mp rest
  rw [fold_run] at hx
  cases hx
  obtain ⟨y, r₄, hy, rest⟩ := run_bind_eq_ok.mp rest
  rw [fold_run] at hy
  cases hy
  rw [modifyMachine_run] at rest
  cases rest
  exact ⟨s, named, rfl⟩

/-- The waveform a declaration or a play reads: folded, with a placeholder keyed by where it
comes from. -/
def waveformValue (ctx : RunSetting) (env : Env) (e : Expr) (declaredAs : String) :
    Except EvalError WaveformInfo :=
  (Fold.waveform ⟨ctx.registry, ctx.sampleRate, env⟩ e).map fun w =>
    match e with
    | .call name _ =>
      if name.name == placeholderName then { w with key := WaveformInfo.placeholderKey declaredAs }
      else w
    | _ => w

theorem waveformOf_run (ctx : RunSetting) (e : Expr) (declaredAs : String) (r : Run) :
    (waveformOf ctx e declaredAs).run r =
      .ok (waveformValue ctx r.machine.env e declaredAs, r) := rfl

theorem declareWaveform_run {ctx : RunSetting} {stmt : Nat} {name : Ident} {value : Expr}
    {r r' : Run} {u : Unit} (h : (declareWaveform ctx stmt name value).run r = .ok (u, r')) :
    ∃ s, name.symbol = some s ∧
      r'.timing = { r.timing with
        env := r.machine.env.insert s
          ((waveformValue ctx r.machine.env value name.name).toOption.map .waveform) } := by
  unfold declareWaveform at h
  obtain ⟨s, r₁, hs, rest⟩ := run_bind_eq_ok.mp h
  obtain ⟨named, rfl⟩ := symbolOf_run hs
  obtain ⟨w, r₂, hw, rest⟩ := run_bind_eq_ok.mp rest
  rw [waveformOf_run] at hw
  cases hw
  refine ⟨s, named, ?_⟩
  split at rest
  · rename_i w hw
    obtain ⟨u₁, r₃, hlog, rest⟩ := run_bind_eq_ok.mp rest
    cases hlog
    rw [bind_run] at rest
    cases rest
    simp only [hw]
    rfl
  · rename_i hw
    rw [bind_run] at rest
    cases rest
    simp only [hw]
    rfl

/-! ### Timed statements -/

theorem delay_run {ctx : RunSetting} {stmt : Nat} {range : TextRange} {d : Expr}
    {frames : List Ident} {r r' : Run} {u : Unit}
    (h : (delay ctx stmt range d frames).run r = .ok (u, r')) :
    ∃ samples rounded fs,
      Fold.durationSamples ⟨ctx.registry, ctx.sampleRate, r.timing.env⟩ d = .ok (samples, rounded) ∧
      (if frames.isEmpty then some r.timing.clocks.frames else frames.mapM r.timing.frameOf?) =
        some fs ∧
      r.timing.clocks.advanceEach fs samples = some r'.timing.clocks ∧
      r'.timing = { r.timing with clocks := r'.timing.clocks } := by
  unfold delay at h
  have step := get_bind_run h
  extract_lets env afterSamples at step
  have samples_ok : ∀ samples rounded (r₁ r₂ : Run) (u : Unit),
      (afterSamples (samples, rounded)).run r₁ = .ok (u, r₂) →
      ∃ fs, (if frames.isEmpty then some r₁.timing.clocks.frames
          else frames.mapM r₁.timing.frameOf?) = some fs ∧
        r₁.timing.clocks.advanceEach fs samples = some r₂.timing.clocks ∧
        r₂.timing = { r₁.timing with clocks := r₂.timing.clocks } := by
    intro samples rounded r₁ r₂ u run
    dsimp -zeta only [afterSamples] at run
    extract_lets afterFrames afterWarning at run
    have frames_ok : ∀ fs (r₃ r₄ : Run) (u : Unit), (afterFrames fs).run r₃ = .ok (u, r₄) →
        r₃.timing.clocks.advanceEach fs samples = some r₄.timing.clocks ∧
          r₄.timing = { r₃.timing with clocks := r₄.timing.clocks } := by
      intro fs r₃ r₄ u run
      have step := get_bind_run run
      obtain ⟨v, r₅, hall, rest⟩ := run_bind_eq_ok.mp step
      obtain ⟨hall, t₅⟩ := advanceAll_run hall
      obtain ⟨w, r₆, hlog, rest⟩ := run_bind_eq_ok.mp rest
      cases hlog
      have t₄ := recordDuration_quiet _ _ _ _ _ rest
      exact ⟨by rw [t₄]; exact hall, by rw [t₄]; exact t₅⟩
    have warning_ok : ∀ (v : Unit) (r₃ r₄ : Run) (u : Unit), (afterWarning v).run r₃ = .ok (u, r₄) →
        ∃ fs, (if frames.isEmpty then some r₃.timing.clocks.frames
            else frames.mapM r₃.timing.frameOf?) = some fs ∧
          r₃.timing.clocks.advanceEach fs samples = some r₄.timing.clocks ∧
          r₄.timing = { r₃.timing with clocks := r₄.timing.clocks } := by
      intro v r₃ r₄ u run
      dsimp only [afterWarning] at run
      split at run
      · rename_i empty
        have step := get_bind_run run
        obtain ⟨fs, r₅, hfs, rest⟩ := run_bind_eq_ok.mp step
        cases hfs
        exact ⟨_, by simp only [empty, ↓reduceIte]; rfl, frames_ok _ _ _ _ rest⟩
      · rename_i named
        obtain ⟨fs, r₅, hfs, rest⟩ := run_bind_eq_ok.mp run
        obtain ⟨hfs, rfl⟩ := resolveFrames_run hfs
        exact ⟨fs, by simp only [named, Bool.false_eq_true, ↓reduceIte, hfs], frames_ok _ _ _ _ rest⟩
    split at run
    · obtain ⟨v, r₃, hw, rest⟩ := run_bind_eq_ok.mp run
      have t₃ := warnNonIntegral_quiet _ _ _ _ _ _ hw
      rw [← t₃]
      exact warning_ok v r₃ r₂ u rest
    · exact warning_ok () r₁ r₂ u run
  split at step
  · rename_i p hp
    obtain ⟨x, r₁, hx, rest⟩ := run_bind_eq_ok.mp step
    cases hx
    obtain ⟨fs, hfs, hadv, t⟩ := samples_ok p.1 p.2 r r' u rest
    exact ⟨p.1, p.2, fs, hp, hfs, hadv, t⟩
  · obtain ⟨x, r₁, hx, rest⟩ := run_bind_eq_ok.mp step
    cases hx

theorem pulse_run {ctx : RunSetting} {stmt : Nat} {range : TextRange} {kind : TimedKind}
    {frame : Ident} {waveform : Expr} {r r' : Run} {u : Unit}
    (h : (pulse ctx stmt range kind frame waveform).run r = .ok (u, r')) :
    ∃ f w start,
      r.timing.frameOf? frame = some f ∧
      waveformValue ctx r.timing.env waveform ("#" ++ toString stmt) = .ok w ∧
      r.timing.clocks.advance f w.samples = some (start, r'.timing.clocks) ∧
      r'.timing = { r.timing with clocks := r'.timing.clocks } := by
  unfold pulse at h
  obtain ⟨f, r₁, hf, rest⟩ := run_bind_eq_ok.mp h
  obtain ⟨hf, rfl⟩ := resolveFrame_run hf
  obtain ⟨w?, r₂, hw, rest⟩ := run_bind_eq_ok.mp rest
  rw [waveformOf_run] at hw
  cases hw
  extract_lets afterWaveform at rest
  have waveform_ok : ∀ (w : WaveformInfo) (r₃ r₄ : Run) (u : Unit),
      (afterWaveform w).run r₃ = .ok (u, r₄) →
      ∃ start, r₃.timing.clocks.advance f w.samples = some (start, r₄.timing.clocks) ∧
        r₄.timing = { r₃.timing with clocks := r₄.timing.clocks } := by
    intro w r₃ r₄ u run
    obtain ⟨start, r₅, hadv, rest⟩ := run_bind_eq_ok.mp run
    obtain ⟨hadv, t₅⟩ := advance_run hadv
    obtain ⟨v, r₆, hlog, rest⟩ := run_bind_eq_ok.mp rest
    cases hlog
    have t₄ := recordDuration_quiet _ _ _ _ _ rest
    exact ⟨start, by rw [t₄]; exact hadv, by rw [t₄]; exact t₅⟩
  split at rest
  · rename_i w hw
    obtain ⟨x, r₃, hx, rest⟩ := run_bind_eq_ok.mp rest
    cases hx
    obtain ⟨start, hadv, t⟩ := waveform_ok w _ _ u rest
    exact ⟨f, w, start, hf, hw, hadv, t⟩
  · obtain ⟨x, r₃, hx, rest⟩ := run_bind_eq_ok.mp rest
    cases hx

theorem update_run {ctx : RunSetting} {stmt : Nat} {op : FrameOp} {frame : Ident}
    {value : Expr} {r r' : Run} {u : Unit}
    (h : (update ctx stmt op frame value).run r = .ok (u, r')) :
    ∃ f, r.timing.frameOf? frame = some f ∧ r'.timing = r.timing := by
  unfold update at h
  obtain ⟨f, r₁, hf, rest⟩ := run_bind_eq_ok.mp h
  obtain ⟨hf, rfl⟩ := resolveFrame_run hf
  obtain ⟨v, r₂, hv, rest⟩ := run_bind_eq_ok.mp rest
  rw [fold_run] at hv
  cases hv
  obtain ⟨w, r₃, hstate, rest⟩ := run_bind_eq_ok.mp rest
  cases hstate
  have t := recordDuration_quiet _ _ _ _ _ rest
  exact ⟨f, hf, t⟩

/-- A barrier of a recording brings its frames to the latest of their clocks. -/
theorem barrier_run {ctx : RunSetting} (record : ctx.mode = .record) {stmt : Nat}
    {range : TextRange} {frames : Option (List Ident)} {recorded : List Nat} {r r' : Run}
    {u : Unit} (h : (barrier ctx stmt range frames recorded).run r = .ok (u, r')) :
    ∃ fs, (match frames with
        | none => some r.timing.clocks.frames
        | some is => is.mapM r.timing.frameOf?) = some fs ∧
      r'.timing = { r.timing with clocks := r.timing.clocks.sync fs (r.timing.clocks.latest fs) } := by
  unfold barrier at h
  extract_lets afterFrames at h
  have frames_ok : ∀ fs (r₁ r₂ : Run) (u : Unit), (afterFrames fs).run r₁ = .ok (u, r₂) →
      r₂.timing = { r₁.timing with
        clocks := r₁.timing.clocks.sync fs (r₁.timing.clocks.latest fs) } := by
    intro fs r₁ r₂ u run
    have step := get_bind_run run
    extract_lets clocks latest afterTime at step
    rw [record] at step
    obtain ⟨time, r₃, htime, rest⟩ := run_bind_eq_ok.mp step
    cases htime
    dsimp only [afterTime] at rest
    obtain ⟨v, r₄, hsync, rest⟩ := run_bind_eq_ok.mp rest
    cases hsync
    have t := recordDuration_quiet _ _ _ _ _ rest
    exact t
  split at h
  · have step := get_bind_run h
    obtain ⟨fs, r₁, hfs, rest⟩ := run_bind_eq_ok.mp step
    cases hfs
    exact ⟨_, rfl, frames_ok _ _ _ u rest⟩
  · obtain ⟨fs, r₁, hfs, rest⟩ := run_bind_eq_ok.mp h
    obtain ⟨hfs, rfl⟩ := resolveFrames_run hfs
    exact ⟨fs, hfs, frames_ok _ _ _ u rest⟩

/-! ### Forgetting -/

/-- The variables an untimed loop is taken to write: those assigned or declared anywhere in its
body. -/
def writtenBy (stmts : List Stmt) : List SymbolId :=
  (Stmt.walkList stmts).filterMap fun s =>
    match s.kind with
    | .assign t _ _ => t.symbol
    | .declare n _ _ => n.symbol
    | _ => none

theorem forgetAll_run {syms : List SymbolId} {r r' : Run} {u : PUnit}
    (h : (forIn syms PUnit.unit fun s _ => do
        bind s none
        pure (ForInStep.yield PUnit.unit) : RunM PUnit).run r = .ok (u, r')) :
    (∀ s, r'.timing.env[s]? = if s ∈ syms then some none else r.timing.env[s]?) ∧
      r'.timing = { r.timing with env := r'.timing.env } := by
  induction syms generalizing r with
  | nil =>
    cases h
    exact ⟨fun _ => rfl, rfl⟩
  | cons s rest ih =>
    rw [List.forIn_cons] at h
    obtain ⟨step, r₁, hstep, hrest⟩ := run_bind_eq_ok.mp h
    obtain ⟨v, r₂, hbind, hyield⟩ := run_bind_eq_ok.mp hstep
    rw [bind_run] at hbind
    cases hbind
    cases hyield
    obtain ⟨env, t⟩ := ih hrest
    refine ⟨fun x => ?_, t⟩
    rw [env x]
    by_cases hx : x ∈ rest
    · simp [hx]
    · by_cases hs : x = s
      · subst hs
        simp
      · simp [hx, hs, Std.HashMap.getElem?_insert, Ne.symm hs]

theorem invalidate_run {stmts : List Stmt} {r r' : Run} {u : Unit}
    (h : (invalidate stmts).run r = .ok (u, r')) :
    (∀ s, r'.timing.env[s]? = if s ∈ writtenBy stmts then some none else r.timing.env[s]?) ∧
      r'.timing = { r.timing with env := r'.timing.env } := by
  unfold invalidate at h
  extract_lets all written updated at h
  obtain ⟨v, r₁, hforget, rest⟩ := run_bind_eq_ok.mp h
  obtain ⟨env, t₁⟩ := forgetAll_run hforget
  have states : ∀ (fs : List SymbolId) (r₂ r₃ : Run) (w : PUnit),
      (forIn fs PUnit.unit fun f _ => do
        modifyMachine fun m =>
          { m with frameStates := m.frameStates.insert ((m.aliases.get? f).getD f) {} }
        pure (ForInStep.yield PUnit.unit) : RunM PUnit).run r₂ = .ok (w, r₃) →
      r₃.timing = r₂.timing := by
    intro fs
    induction fs with
    | nil => intro r₂ r₃ w run; cases run; rfl
    | cons f rest ih =>
      intro r₂ r₃ w run
      rw [List.forIn_cons] at run
      obtain ⟨step, r₄, hstep, hrest⟩ := run_bind_eq_ok.mp run
      obtain ⟨v, r₅, hmod, hyield⟩ := run_bind_eq_ok.mp hstep
      cases hmod
      cases hyield
      have t := ih _ _ _ hrest
      exact t
  obtain ⟨w, r₂, hstates, last⟩ := run_bind_eq_ok.mp rest
  cases last
  have t₂ := states _ _ _ _ hstates
  refine ⟨fun s => ?_, ?_⟩
  · rw [t₂]
    exact env s
  · rw [t₂]
    exact t₁

/-! ### Calls -/

/-- Binds one parameter of a call to its argument, as a call does: a frame parameter to the
frame an identifier names, any other parameter to the argument's folded value. -/
def bindParam (ctx : RunSetting) (x : Param × Expr) (_ : PUnit) : RunM (ForInStep PUnit) :=
  match x with
  | (p, a) =>
    match p.name.symbol with
    | none => pure (ForInStep.yield PUnit.unit)
    | some ps =>
      if (p.ty == Ty.frame) = true then
        match a with
        | Expr.ident f => do
          let frame ← resolveFrame f
          modifyMachine fun m => { m with aliases := m.aliases.insert ps frame }
          pure (ForInStep.yield PUnit.unit)
        | _ => pure (ForInStep.yield PUnit.unit)
      else do
        bind ps (← fold ctx a)
        pure (ForInStep.yield PUnit.unit)

theorem bindParam_run {ctx : RunSetting} {p : Param} {a : Expr} {u : PUnit} {r r' : Run}
    {step : ForInStep PUnit} (h : (bindParam ctx (p, a) u).run r = .ok (step, r')) :
    step = .yield PUnit.unit ∧
      (p.name.symbol = none ∧ r' = r ∨
        ∃ ps, p.name.symbol = some ps ∧
          ((p.ty == .frame) = true ∧ (∀ i, a ≠ .ident i) ∧ r' = r ∨
            (p.ty == .frame) = true ∧ (∃ i f, a = .ident i ∧ r.timing.frameOf? i = some f ∧
              r' = { r with machine := { r.machine with
                aliases := r.machine.aliases.insert ps f } }) ∨
            (p.ty == .frame) = false ∧
              r' = { r with machine := { r.machine with
                env := r.machine.env.insert ps
                  (Fold.eval ⟨ctx.registry, ctx.sampleRate, r.machine.env⟩ a).toOption } })) := by
  unfold bindParam at h
  dsimp only at h
  split at h
  · cases h
    exact ⟨rfl, Or.inl ⟨by assumption, rfl⟩⟩
  · rename_i ps hps
    split at h
    · rename_i frame
      split at h
      · obtain ⟨f, r₁, hf, rest⟩ := run_bind_eq_ok.mp h
        obtain ⟨hf, rfl⟩ := resolveFrame_run hf
        obtain ⟨v, r₂, hmod, rest⟩ := run_bind_eq_ok.mp rest
        rw [modifyMachine_run] at hmod
        cases hmod
        cases rest
        exact ⟨rfl, Or.inr ⟨ps, hps, Or.inr (Or.inl ⟨frame, _, f, rfl, hf, rfl⟩)⟩⟩
      · rename_i other
        cases h
        exact ⟨rfl, Or.inr ⟨ps, hps, Or.inl ⟨frame, fun i same => other i same, rfl⟩⟩⟩
    · rename_i value
      obtain ⟨v, r₁, hv, rest⟩ := run_bind_eq_ok.mp h
      rw [fold_run] at hv
      cases hv
      obtain ⟨w, r₂, hbind, rest⟩ := run_bind_eq_ok.mp rest
      rw [bind_run] at hbind
      cases hbind
      cases rest
      exact ⟨rfl, Or.inr ⟨ps, hps, Or.inr (Or.inr ⟨by simpa using value, rfl⟩)⟩⟩

/-- A call looks up its callee among the callables, refuses a callee already on the call
stack, binds the parameters, runs the body with the callee pushed on the stack, and answers
`elapsedSince` between the clocks the body started and ended with. -/
theorem invoke_run {runBody : List Stmt → RunM Unit} {ctx : RunSetting} {name : Ident}
    {args : List Expr} {range : TextRange} {r r' : Run} {n : Nat}
    (h : (invoke runBody ctx name args range).run r = .ok (n, r')) :
    ∃ g callee r₁ r₂, name.symbol = some g ∧ r.callables[g]? = some callee ∧
      g ∉ r.callStack ∧
      (forIn (callee.params.zip args) PUnit.unit (bindParam ctx)).run r = .ok (PUnit.unit, r₁) ∧
      (runBody callee.body).run { r₁ with callStack := g :: r₁.callStack } = .ok ((), r₂) ∧
      r'.timing = { r₂.timing with callStack := r₂.callStack.drop 1 } ∧
      n = r₂.machine.clocks.elapsedSince r₁.machine.clocks := by
  unfold invoke at h
  obtain ⟨g, r₁, hg, rest⟩ := run_bind_eq_ok.mp h
  obtain ⟨named, rfl⟩ := symbolOf_run hg
  have step := get_bind_run rest
  split at step
  · rename_i callee found
    have step := get_bind_run step
    extract_lets call at step
    split at step
    · obtain ⟨x, r₂, hx, -⟩ := run_bind_eq_ok.mp step
      cases hx
    · rename_i fresh
      dsimp only [call] at step
      obtain ⟨u, r₂, hparams, rest⟩ := run_bind_eq_ok.mp step
      have rest := get_bind_run rest
      obtain ⟨u₁, r₃, hpush, rest⟩ := run_bind_eq_ok.mp rest
      cases hpush
      obtain ⟨u₂, r₄, hbody, rest⟩ := run_bind_eq_ok.mp rest
      obtain ⟨u₃, r₅, hpop, rest⟩ := run_bind_eq_ok.mp rest
      cases hpop
      have rest := get_bind_run rest
      cases rest
      refine ⟨g, callee, r₂, r₄, named, by simpa using found, by simpa using fresh, hparams, hbody,
        rfl, rfl⟩
  · cases step

/-- An expression runs as a call when it is a call of a callable, and does nothing otherwise. -/
theorem inlineCall_run {runBody : List Stmt → RunM Unit} {ctx : RunSetting} {e : Expr}
    {range : TextRange} {r r' : Run} {res : Option Nat}
    (h : (inlineCall runBody ctx e range).run r = .ok (res, r')) :
    (∃ name args s n, e = .call name args ∧ name.symbol = some s ∧
      r.callables.contains s = true ∧ (invoke runBody ctx name args range).run r = .ok (n, r')) ∨
    ((∀ name args s, e = .call name args → name.symbol = some s →
      r.callables.contains s = false) ∧ r' = r) := by
  unfold inlineCall at h
  split at h
  · rename_i name args
    split at h
    · rename_i s hs
      have step := get_bind_run h
      split at step
      · rename_i contains
        rw [StateT.run_map] at step
        cases hn : (invoke runBody ctx name args range).run r with
        | error e =>
          rw [hn] at step
          cases step
        | ok p =>
          rw [hn] at step
          cases step
          exact Or.inl ⟨name, args, s, p.1, rfl, hs, contains, hn⟩
      · rename_i absent
        cases step
        refine Or.inr ⟨fun name' args' s' same hs' => ?_, rfl⟩
        cases same
        rw [hs] at hs'
        cases hs'
        simpa using absent
    · rename_i hs
      cases h
      refine Or.inr ⟨fun name' args' s' same hs' => ?_, rfl⟩
      cases same
      rw [hs] at hs'
      cases hs'
  · rename_i other
    cases h
    exact Or.inr ⟨fun name args s same => absurd same (other name args), rfl⟩

/-! ### Branches and loops -/

/-- What the resolver makes of a condition: its truth value where it folds to one. -/
def Timing.test (ctx : RunSetting) (t : Timing) (cond : Expr) : Option Bool :=
  (Fold.eval ⟨ctx.registry, ctx.sampleRate, t.env⟩ cond).toOption.bind Value.asBool?

/-- An `if` runs the branch its folded condition selects, or with an unknown condition both
branches from the same machine, merging them where their clocks agree. -/
theorem branch_run {ctx : RunSetting} {stmt : Nat} {range : TextRange} {cond : Expr}
    {thenPart elsePart : RunM Unit} {r r' : Run} {u : Unit}
    (h : (branch ctx stmt range cond thenPart elsePart).run r = .ok (u, r')) :
    (r.timing.test ctx cond = some true ∧ ∃ r₁, thenPart.run r = .ok ((), r₁) ∧
      r'.timing = r₁.timing) ∨
    (r.timing.test ctx cond = some false ∧ ∃ r₁, elsePart.run r = .ok ((), r₁) ∧
      r'.timing = r₁.timing) ∨
    (r.timing.test ctx cond = none ∧ ∃ r₁ r₂, thenPart.run r = .ok ((), r₁) ∧
      elsePart.run { r₁ with machine := r.machine } = .ok ((), r₂) ∧
      r₁.machine.clocks.agree r₂.machine.clocks = true ∧
      r'.timing = { r₂.timing with env := (r₂.machine.merge r₁.machine).env }) := by
  unfold branch at h
  have step := get_bind_run h
  extract_lets before finish at step
  have finished : ∀ (r₁ r₂ : Run) (u : Unit), (finish ()).run r₁ = .ok (u, r₂) →
      r₂.timing = r₁.timing := fun r₁ r₂ u run =>
    recordDuration_quiet _ _ _ _ _ (get_bind_run run)
  obtain ⟨val, r₁, hval, rest⟩ := run_bind_eq_ok.mp step
  rw [fold_run] at hval
  cases hval
  split at rest
  · rename_i test
    obtain ⟨x, r₂, hthen, rest⟩ := run_bind_eq_ok.mp rest
    exact Or.inl ⟨test, r₂, hthen, finished _ _ _ rest⟩
  · rename_i test
    obtain ⟨x, r₂, helse, rest⟩ := run_bind_eq_ok.mp rest
    exact Or.inr (Or.inl ⟨test, r₂, helse, finished _ _ _ rest⟩)
  · rename_i test
    have rest := get_bind_run rest
    obtain ⟨x, r₂, hthen, rest⟩ := run_bind_eq_ok.mp rest
    have rest := get_bind_run rest
    obtain ⟨y, r₃, hrestore, rest⟩ := run_bind_eq_ok.mp rest
    cases hrestore
    obtain ⟨z, r₄, helse, rest⟩ := run_bind_eq_ok.mp rest
    have rest := get_bind_run rest
    extract_lets merged at rest
    split at rest
    · obtain ⟨e, r₆, he, -⟩ := run_bind_eq_ok.mp rest
      cases he
    · rename_i agree
      dsimp only [merged] at rest
      obtain ⟨w, r₅, hset, rest⟩ := run_bind_eq_ok.mp rest
      cases hset
      refine Or.inr (Or.inr ⟨test, r₂, r₄, hthen, helse, by simpa using agree, ?_⟩)
      rw [finished _ _ _ rest]
      rfl

/-- One trip of a loop: the variable takes the value and the body runs. -/
def trip (v : SymbolId) (body : RunM Unit) (x : Value) (_ : PUnit) : RunM (ForInStep PUnit) := do
  bind v (some x)
  body
  pure (ForInStep.yield PUnit.unit)

/-- A run that forgets some variables and keeps everything else timing depends on. -/
def Timing.Forgot (t t' : Timing) (syms : List SymbolId) : Prop :=
  (∀ s, t'.env[s]? = if s ∈ syms then some none else t.env[s]?) ∧ t' = { t with env := t'.env }

/-- A `for` loop whose values fold runs its trips over them; one whose values do not must take
no time, and forgets its variable and what its body writes. -/
theorem forLoop_run {ctx : RunSetting} {stmt : Nat} {range : TextRange} {var : Ident}
    {it : Iteration} {bodyStmts : List Stmt} {body : RunM Unit} {r r' : Run} {u : Unit}
    (h : (forLoop ctx stmt range var it bodyStmts body).run r = .ok (u, r')) :
    ∃ v, var.symbol = some v ∧
      ((∃ e, loopValues ctx r.machine.env it = .error e) ∧
          hasTimingEffect r bodyStmts = false ∧ r.timing.Forgot r'.timing (v :: writtenBy bodyStmts) ∨
        ∃ values r₁ r₂, loopValues ctx r.machine.env it = .ok values ∧ r₁.timing = r.timing ∧
          (forIn values PUnit.unit (trip v body)).run r₁ = .ok (PUnit.unit, r₂) ∧
          r'.timing = r₂.timing) := by
  unfold forLoop at h
  obtain ⟨v, r₁, hv, rest⟩ := run_bind_eq_ok.mp h
  obtain ⟨named, rfl⟩ := symbolOf_run hv
  refine ⟨v, named, ?_⟩
  have step := get_bind_run rest
  split at step
  · rename_i e he
    have step := get_bind_run step
    extract_lets forget at step
    split at step
    · obtain ⟨x, r₂, hx, -⟩ := run_bind_eq_ok.mp step
      cases hx
    · rename_i quiet
      dsimp only [forget] at step
      obtain ⟨x, r₂, hbind, rest⟩ := run_bind_eq_ok.mp step
      rw [bind_run] at hbind
      cases hbind
      obtain ⟨env, t⟩ := invalidate_run rest
      refine Or.inl ⟨⟨e, he⟩, by simpa using quiet, fun s => ?_, t⟩
      rw [env s]
      by_cases hs : s = v
      · subst hs
        simp
      · simp [hs, Std.HashMap.getElem?_insert, Ne.symm hs]
  · rename_i values hvalues
    obtain ⟨x, r₂, hlog, rest⟩ := run_bind_eq_ok.mp step
    have same : r₂.timing = r₁.timing := by
      cases hlog
      rfl
    obtain ⟨x, r₃, hloop, rest⟩ := run_bind_eq_ok.mp (get_bind_run rest)
    exact Or.inr ⟨values, r₂, r₃, hvalues, same, hloop,
      recordDuration_quiet _ _ _ _ _ (get_bind_run rest)⟩

/-- A `while` loop known not to run does nothing; any other must take no time, and forgets
what its body writes. -/
theorem whileLoop_run {ctx : RunSetting} {stmt : Nat} {range : TextRange} {cond : Expr}
    {bodyStmts : List Stmt} {r r' : Run} {u : Unit}
    (h : (whileLoop ctx stmt range cond bodyStmts).run r = .ok (u, r')) :
    r.timing.test ctx cond = some false ∧ r'.timing = r.timing ∨
      hasTimingEffect r bodyStmts = false ∧ r.timing.Forgot r'.timing (writtenBy bodyStmts) := by
  unfold whileLoop at h
  obtain ⟨val, r₁, hval, rest⟩ := run_bind_eq_ok.mp h
  rw [fold_run] at hval
  cases hval
  split at rest
  · rename_i test
    exact Or.inl ⟨by simpa [Timing.test] using test, recordDuration_quiet _ _ _ _ _ rest⟩
  · have step := get_bind_run rest
    split at step
    · obtain ⟨x, r₂, hx, -⟩ := run_bind_eq_ok.mp step
      cases hx
    · rename_i quiet
      obtain ⟨x, r₂, hforget, rest⟩ := run_bind_eq_ok.mp step
      have t := recordDuration_quiet _ _ _ _ _ rest
      obtain ⟨env, t₂⟩ := invalidate_run hforget
      refine Or.inr ⟨by simpa using quiet, fun s => ?_, ?_⟩
      · rw [t]
        exact env s
      · rw [t]
        exact t₂

end Run

/-! ### Merging the two branches of an `if` -/

section Merge

variable {g : Env → SymbolId → Option Value → Env}

/-- A step that at most forgets the value of the symbol it is given. -/
def Forgets (g : Env → SymbolId → Option Value → Env) : Prop :=
  ∀ env k v x, (g env k v)[x]? = env[x]? ∨ (k = x ∧ (g env k v)[x]? = some none)

theorem foldl_forgets (hg : Forgets g) (L : List (SymbolId × Option Value)) (init : Env)
    (x : SymbolId) :
    (L.foldl (fun env p => g env p.1 p.2) init)[x]? = init[x]? ∨
      (L.foldl (fun env p => g env p.1 p.2) init)[x]? = some none := by
  induction L generalizing init with
  | nil => exact Or.inl rfl
  | cons p rest ih =>
    rcases ih (g init p.1 p.2) with keep | forgot
    · rcases hg init p.1 p.2 x with same | ⟨-, none_⟩
      · exact Or.inl (keep.trans same)
      · exact Or.inr (keep.trans none_)
    · exact Or.inr forgot

theorem foldl_forgotten (hg : Forgets g) (L : List (SymbolId × Option Value)) {init : Env}
    {x : SymbolId} (h : init[x]? = some none) :
    (L.foldl (fun env p => g env p.1 p.2) init)[x]? = some none := by
  rcases foldl_forgets hg L init x with keep | forgot
  · exact keep.trans h
  · exact forgot

theorem foldl_forgets_unknown (hg : Forgets g) (hx : ∀ env x, (g env x none)[x]? = some none)
    {L : List (SymbolId × Option Value)} {x : SymbolId} (hmem : (x, none) ∈ L) (init : Env) :
    (L.foldl (fun env p => g env p.1 p.2) init)[x]? = some none := by
  induction L generalizing init with
  | nil => cases hmem
  | cons p rest ih =>
    rcases List.mem_cons.mp hmem with rfl | hmem
    · exact foldl_forgotten hg rest (hx init x)
    · exact ih hmem _

end Merge

/-- Merging keeps a known value of the machine or forgets it, and forgets every value the other
machine does not know. -/
theorem Machine.merge_env (m other : Machine) (s : SymbolId) :
    ((m.merge other).env[s]? = m.env[s]? ∨ (m.merge other).env[s]? = some none) ∧
      (other.env[s]? = some none → (m.merge other).env[s]? = some none) := by
  have step : Forgets Env.mergeValue := by
    intro env k v x
    unfold Env.mergeValue
    dsimp only
    split_ifs
    · exact Or.inl rfl
    · by_cases hk : k = x
      · exact Or.inr ⟨hk, by simp [hk]⟩
      · exact Or.inl (by simp [Std.HashMap.getElem?_insert, hk])
  simp only [Machine.merge, Std.HashMap.fold_eq_foldl_toList]
  refine ⟨foldl_forgets step _ _ s, fun unknown => ?_⟩
  refine foldl_forgets_unknown step (fun env x => ?_)
    (Std.HashMap.mem_toList_iff_getElem?_eq_some.mpr unknown) _
  unfold Env.mergeValue
  cases hx : env[x]? with
  | none => simp [hx]
  | some o => cases o <;> simp [hx]

end PulseCompiler
