import PulseCompiler.Timeline.Clocks
import PulseCompiler.Timeline.Report
import PulseCompiler.Value.Eval
import PulseCompiler.Analysis.Error
import PulseCompiler.Program.Stmt
import Std.Data.HashMap
set_option autoImplicit false

/-!
# Resolving durations

`Program.resolve` runs an analyzed program on its frame clocks, before any hardware sees it.
Delays advance the frames they name (all declared frames when they name none) by their
duration; plays and captures advance their frame by the waveform's length; a barrier brings
its frames to the latest of their clocks. Calls of subroutines and defcals run their bodies
with the arguments bound, frame parameters standing for the frames passed in; a `for` loop
runs once per value of its range or set, at most `2^20` times.

Values are folded where they are known before run time. Where they are not, the run goes on
as long as the timing does not depend on them: a `for` loop or `while` loop whose body takes
no time only forgets the values the body writes, and the two branches of an `if` with an
unknown condition must end with the same clocks, keeping the values both agree on. Anything
else is an unresolved duration.

Afterwards every evaluated statement carries the range of samples it took and every barrier
the times it synchronized to. `Program.replay` runs a program again with each barrier held
to the times recorded on it, and fails when a frame would have to go back in time: this is
how a program split across cores is checked against the program it came from.

Calls cannot recurse, so the depth of calls is bounded by the number of subroutines and
defcals in the program; that bound is the fuel of the run.
-/

namespace PulseCompiler

/-- Longest `for` range that is run; a longer timed loop is unresolved. -/
def maxLoopTrips : Nat := Nat.pow 2 20

/-- The parameters and body of a subroutine or defcal, as a call runs them. -/
structure Callable where
  params : List Param
  body : List Stmt
  deriving Inhabited

/-- What an `if` with an unknown condition restores before running its other branch: the
clocks, the known values, the frame states, and the frames that frame parameters stand for. -/
structure Machine where
  clocks : FrameClocks := {}
  env : Env := {}
  frameStates : Std.HashMap SymbolId FrameState := {}
  aliases : Std.HashMap SymbolId SymbolId := {}
  deriving Inhabited

/-- How barriers take their times: from the clocks, or from the times recorded on them, in
which case the label names the program in a mismatch. -/
inductive SyncMode where
  | record
  | replay (label : String)
  deriving Repr, Inhabited

/-- What a run reads but never changes. -/
structure RunSetting where
  registry : Registry
  sampleRate : Float
  mode : SyncMode

/-- Everything a run accumulates. -/
structure Run where
  machine : Machine := {}
  callables : Std.HashMap SymbolId Callable := {}
  callStack : List SymbolId := []
  frameNames : Std.HashMap SymbolId String := {}
  durations : Std.HashMap Nat SampleRange := {}
  /-- For each barrier met in a replay, the recorded times it has not used yet. -/
  replayTimes : Std.HashMap Nat (List Nat) := {}
  barriers : Array BarrierSync := #[]
  events : Array TimedEvent := #[]
  waveforms : Array WaveformEvent := #[]
  declaredWaveforms : Std.HashMap Nat (Array WaveformInfo) := {}
  loopTrips : Std.HashMap Nat Nat := {}
  warnings : Array TimingWarning := #[]
  deriving Inhabited

/-- Running a program: the accumulated run, stopping at the first error. -/
abbrev RunM := StateT Run (Except SemanticError)

/-- Keeps a symbol's value where another machine holds the same, and makes it unknown
otherwise. -/
def Env.mergeValue (env : Env) (s : SymbolId) (v : Option Value) : Env :=
  let agrees := match env.get? s, v with
    | some none, none => true
    | some (some a), some b => a.same b
    | _, _ => false
  if agrees then env else env.insert s none

/-- Keeps what the machine and another agree on: a value or frame state on which they differ
becomes unknown. -/
def Machine.merge (m other : Machine) : Machine :=
  let env := other.env.fold Env.mergeValue m.env
  let states := other.frameStates.fold (fun (st : Std.HashMap SymbolId FrameState) f fs =>
    let mine := (st.get? f).getD {}
    st.insert f (if mine.same fs then mine else {})) m.frameStates
  { m with env := env, frameStates := states }

namespace Run

/-- An unresolved duration at a range. -/
def unresolved (why : String) (range : TextRange) : SemanticError :=
  ⟨.unresolvedDuration why, range⟩

/-- The symbol an identifier was bound to; an unbound identifier is undeclared. -/
def symbolOf (i : Ident) : RunM SymbolId :=
  match i.symbol with
  | some s => pure s
  | none => throw ⟨.undeclared i.name, i.range⟩

/-- Changes the machine. -/
def modifyMachine (f : Machine → Machine) : RunM Unit :=
  modify fun r => { r with machine := f r.machine }

/-- Binds a symbol to a value, or marks it unknown. -/
def bind (s : SymbolId) (v : Option Value) : RunM Unit :=
  modifyMachine fun m => { m with env := m.env.insert s v }

/-- The value of an expression where it is known before run time. -/
def fold (ctx : RunSetting) (e : Expr) : RunM (Option Value) := do
  pure (Fold.eval ⟨ctx.registry, ctx.sampleRate, (← get).machine.env⟩ e).toOption

/-- The name of a frame in reports. -/
def frameName (r : Run) (frame : SymbolId) : String :=
  (r.frameNames.get? frame).getD ("SymbolId(" ++ toString frame ++ ")")

/-- Notes one evaluation of a statement that took some samples. -/
def recordDuration (stmt samples : Nat) : RunM Unit :=
  modify fun r =>
    let d : SampleRange := match r.durations.get? stmt with
      | some d => d.include samples
      | none => ⟨samples, samples⟩
    { r with durations := r.durations.insert stmt d }

/-- The declared frame an identifier names, looking through frame parameters. -/
def resolveFrame (i : Ident) : RunM SymbolId := do
  let s ← symbolOf i
  let m := (← get).machine
  let f := (m.aliases.get? s).getD s
  if m.clocks.contains f then pure f
  else throw (unresolved ("frame `" ++ i.name ++ "` is not bound to a declared frame") i.range)

/-- The declared frames some identifiers name, stopping at the first that names none. -/
def resolveFrames (is : List Ident) : RunM (List SymbolId) := is.mapM resolveFrame

/-- Advances a frame, failing when its clock would overflow; returns the start time. -/
def advance (frame : SymbolId) (samples : Nat) (range : TextRange) : RunM Nat := do
  let r ← get
  match r.machine.clocks.advance frame samples with
  | some (start, c) =>
    set { r with machine := { r.machine with clocks := c } }
    pure start
  | none => throw (unresolved ("clock of `" ++ r.frameName frame ++ "` overflows") range)

/-- The waveform an expression folds to. A placeholder has no content of its own, so it is
keyed by where it comes from. -/
def waveformOf (ctx : RunSetting) (e : Expr) (declaredAs : String) :
    RunM (Except EvalError WaveformInfo) := do
  let env := (← get).machine.env
  pure <| (Fold.waveform ⟨ctx.registry, ctx.sampleRate, env⟩ e).map fun w =>
    match e with
    | .call name _ =>
      if name.name == placeholderName then { w with key := WaveformInfo.placeholderKey declaredAs }
      else w
    | _ => w

/-- Warns, once per statement and duration, that a duration was rounded to whole samples. -/
def warnNonIntegral (stmt : Nat) (range : TextRange) (samples : Nat) : RunM Unit :=
  modify fun r =>
    let w : TimingWarning := ⟨.nonIntegral, stmt, range, samples⟩
    if r.warnings.contains w then r else { r with warnings := r.warnings.push w }

/-- Whether a statement calls a subroutine or defcal already defined. -/
def callsSubroutine (r : Run) (s : Stmt) : Bool :=
  let called : Option Expr :=
    match s.kind with
    | .expr e => some e
    | .assign _ _ v => some v
    | .declare _ _ init => init
    | _ => none
  match called with
  | some (.call name _) => match name.symbol with
    | some sym => r.callables.contains sym
    | none => false
  | _ => false

/-- Whether running some statements could take time: a timed statement, a barrier, a gate
call or a call of a subroutine anywhere in them. -/
def hasTimingEffect (r : Run) (stmts : List Stmt) : Bool :=
  (Stmt.walkList stmts).any fun s =>
    s.kind.isTimed || callsSubroutine r s ||
      (match s.kind with
        | .barrier .. | .gate .. => true
        | _ => false)

/-- Forgets what statements that are not run statically could write: the values they assign
or declare and the states of the frames they update. -/
def invalidate (stmts : List Stmt) : RunM Unit := do
  let all := Stmt.walkList stmts
  let written := all.filterMap fun s =>
    match s.kind with
    | .assign t _ _ => t.symbol
    | .declare n _ _ => n.symbol
    | _ => none
  let updated := all.filterMap fun s =>
    match s.kind with
    | .update _ f _ => f.symbol
    | _ => none
  for s in written do bind s none
  for f in updated do
    modifyMachine fun m =>
      { m with frameStates := m.frameStates.insert ((m.aliases.get? f).getD f) {} }

/-- Runs a call of a subroutine or defcal: binds its parameters, runs its body, and returns
the largest advance of any clock. -/
def invoke (runBody : List Stmt → RunM Unit) (ctx : RunSetting) (name : Ident)
    (args : List Expr) (range : TextRange) : RunM Nat := do
  let sym ← symbolOf name
  let some c := (← get).callables.get? sym
    | throw (unresolved ("`" ++ name.name ++ "` is called before it is defined") range)
  if (← get).callStack.contains sym then
    throw (unresolved ("recursive call to `" ++ name.name ++ "`") range)
  for (p, a) in c.params.zip args do
    match p.name.symbol with
    | none => pure ()
    | some ps =>
      if p.ty == .frame then
        match a with
        | .ident f =>
          let frame ← resolveFrame f
          modifyMachine fun m => { m with aliases := m.aliases.insert ps frame }
        | _ => pure ()
      else bind ps (← fold ctx a)
  let before := (← get).machine.clocks
  modify fun r => { r with callStack := sym :: r.callStack }
  runBody c.body
  modify fun r => { r with callStack := r.callStack.drop 1 }
  pure ((← get).machine.clocks.elapsedSince before)

/-- Runs an expression if it is a call of a subroutine or defcal already defined, returning
the time it took. -/
def inlineCall (runBody : List Stmt → RunM Unit) (ctx : RunSetting) (e : Expr)
    (range : TextRange) : RunM (Option Nat) := do
  match e with
  | .call name args =>
    match name.symbol with
    | some s =>
      if (← get).callables.contains s then some <$> invoke runBody ctx name args range
      else pure none
    | none => pure none
  | _ => pure none

/-- Starts the clock of a declared frame and notes its frequency and phase. -/
def declareFrame (ctx : RunSetting) (name : Ident) (frequency phase : Expr) : RunM Unit := do
  let f ← symbolOf name
  modify fun r => { r with
    machine := { r.machine with clocks := r.machine.clocks.declare f }
    frameNames := r.frameNames.insert f name.name }
  let state : FrameState :=
    ⟨(← fold ctx frequency).bind Value.asFloat?, (← fold ctx phase).bind Value.asFloat?⟩
  modifyMachine fun m => { m with frameStates := m.frameStates.insert f state }

/-- Binds a declared waveform to its value, noting each distinct value of the declaration. -/
def declareWaveform (ctx : RunSetting) (stmt : Nat) (name : Ident) (value : Expr) :
    RunM Unit := do
  let s ← symbolOf name
  match ← waveformOf ctx value name.name with
  | .ok w =>
    modify fun r =>
      let seen := (r.declaredWaveforms.get? stmt).getD #[]
      { r with declaredWaveforms :=
          r.declaredWaveforms.insert stmt (if seen.contains w then seen else seen.push w) }
    bind s (some (.waveform w))
  | .error _ => bind s none

/-- Runs a delay: the frames start together at the latest of their clocks. -/
def delay (ctx : RunSetting) (stmt : Nat) (range : TextRange) (duration : Expr)
    (frames : List Ident) : RunM Unit := do
  let env := (← get).machine.env
  let (samples, rounded) ←
    match Fold.durationSamples ⟨ctx.registry, ctx.sampleRate, env⟩ duration with
    | .ok p => pure p
    | .error e => throw (unresolved e.message range)
  if rounded then warnNonIntegral stmt range samples
  let fs ← if frames.isEmpty then pure (← get).machine.clocks.frames else resolveFrames frames
  let start := (← get).machine.clocks.latest fs
  for f in fs do
    let _ ← advance f samples range
  modify fun r =>
    let e : TimedEvent := ⟨stmt, range, .delay, fs.map r.frameName, start, samples⟩
    { r with events := r.events.push e }
  recordDuration stmt samples

/-- Runs a play or capture: the frame advances by the waveform's length. -/
def pulse (ctx : RunSetting) (stmt : Nat) (range : TextRange) (kind : TimedKind)
    (frame : Ident) (waveform : Expr) : RunM Unit := do
  let f ← resolveFrame frame
  let w ← match ← waveformOf ctx waveform ("#" ++ toString stmt) with
    | .ok w => pure w
    | .error e => throw (unresolved e.message range)
  let start ← advance f w.samples range
  modify fun r =>
    let name := r.frameName f
    { r with
      events := r.events.push ⟨stmt, range, kind, [name], start, w.samples⟩
      waveforms := r.waveforms.push ⟨stmt, name, w⟩ }
  recordDuration stmt w.samples

/-- Runs a frequency or phase update; a shift of an unknown quantity stays unknown. -/
def update (ctx : RunSetting) (stmt : Nat) (op : FrameOp) (frame : Ident) (value : Expr) :
    RunM Unit := do
  let f ← resolveFrame frame
  let v := (← fold ctx value).bind Value.asFloat?
  modifyMachine fun m =>
    let st := (m.frameStates.get? f).getD {}
    let st' : FrameState := match op with
      | .setFrequency => { st with frequency := v }
      | .shiftFrequency => { st with frequency := st.frequency.bind fun x => v.map (x + ·) }
      | .setPhase => { st with phase := v }
      | .shiftPhase => { st with phase := st.phase.bind fun x => v.map (x + ·) }
    { m with frameStates := m.frameStates.insert f st' }
  recordDuration stmt 0

/-- Runs a barrier: its frames (all declared frames when it names none) are brought to the
latest of their clocks, or in a replay to the time recorded for this evaluation, which may
not lie before that. -/
def barrier (ctx : RunSetting) (stmt : Nat) (range : TextRange) (frames : Option (List Ident))
    (recorded : List Nat) : RunM Unit := do
  let fs ← match frames with
    | none => pure (← get).machine.clocks.frames
    | some is => resolveFrames is
  let clocks := (← get).machine.clocks
  let latest := clocks.latest fs
  let time ← match ctx.mode with
    | .record => pure latest
    | .replay label => do
      let r ← get
      match (r.replayTimes.get? stmt).getD recorded with
      | t :: later =>
        set { r with replayTimes := r.replayTimes.insert stmt later }
        if t ≥ latest then pure t else throw ⟨.splitMismatch label, range⟩
      | [] => throw ⟨.splitMismatch label, range⟩
  let padding := if fs.isEmpty then 0 else time - clocks.earliest fs
  modify fun r => { r with
    machine := { r.machine with clocks := r.machine.clocks.sync fs time }
    barriers := r.barriers.push ⟨stmt, fs.map r.frameName, time, padding⟩ }
  recordDuration stmt padding

/-- Whether a value of a range is within its bound: at most it for a positive step, at least it
for a negative one. -/
def inRange (step stop i : Int) : Bool := (0 < step && i ≤ stop) || (step < 0 && stop ≤ i)

/-- The values of a range from `next` on, pushed after the values `acc`: a value within the
bound is pushed and the next one is its checked sum with the step, so a step past the 64-bit
range ends the range as a value past the bound does. `room` is how many more values the cap of
`maxLoopTrips` admits, and it is tested before each push. -/
def rangeSteps (within : Int → Bool) (step : Int) :
    (room : Nat) → (next : Option Int) → (acc : Array Value) → Except EvalError (Array Value)
  | _, none, acc => .ok acc
  | room, some i, acc =>
    if within i then
      match room with
      | 0 => .error (.tooManyIterations maxLoopTrips)
      | room + 1 => rangeSteps within step room (Int.inWordRange (i + step)) (acc.push (.int i))
    else .ok acc

/-- The values of the range from `start` by `step` to `stop`: none for a zero step, and
otherwise those the loop pushes from `start` on. -/
def rangeValues (start step stop : Int) : Except EvalError (List Value) :=
  if step == 0 then .error .zeroStep
  else Array.toList <$> rangeSteps (inRange step stop) step maxLoopTrips (some start) #[]

/-- The values of a `for` loop's iteration, when known before run time: those of a set, or
those of a range from its first value by its step (`1` when it has none) while they stay
within its bound, at most it for a positive step and at least it for a negative one. A range
whose bounds or step are not integers, whose step is zero, or that has more than
`maxLoopTrips` values has none. -/
def loopValues (ctx : RunSetting) (env : Env) : Iteration → Except EvalError (List Value)
  | .set values => Fold.evalList ⟨ctx.registry, ctx.sampleRate, env⟩ values
  | .range start step stop => do
    let integer (e : Expr) : Except EvalError Int := do
      let v ← Fold.eval ⟨ctx.registry, ctx.sampleRate, env⟩ e
      match v.asInt? with
      | some n => pure n
      | none => throw (.rangeBound v.fragment)
    let a ← integer start
    let b ← integer stop
    let d ← match step with
      | some s => integer s
      | none => pure 1
    rangeValues a d b

/-- Runs a `for` loop, given the run of its body. A loop whose values are unknown must take
no time; it then only forgets what its body writes. -/
def forLoop (ctx : RunSetting) (stmt : Nat) (range : TextRange) (var : Ident) (it : Iteration)
    (bodyStmts : List Stmt) (body : RunM Unit) : RunM Unit := do
  let v ← symbolOf var
  match loopValues ctx (← get).machine.env it with
  | .error e =>
    if hasTimingEffect (← get) bodyStmts then
      throw (unresolved ("trip count of a timed `for` loop: " ++ e.message) range)
    bind v none
    invalidate bodyStmts
  | .ok values =>
    modify fun r =>
      let trips := Nat.max ((r.loopTrips.get? stmt).getD 0) values.length
      { r with loopTrips := r.loopTrips.insert stmt trips }
    let before := (← get).machine.clocks
    for x in values do
      bind v (some x)
      body
    recordDuration stmt ((← get).machine.clocks.elapsedSince before)

/-- Runs a `while` loop: a loop known not to run takes no time, and any other must have a
body that takes none; it then only forgets what its body writes. -/
def whileLoop (ctx : RunSetting) (stmt : Nat) (range : TextRange) (cond : Expr)
    (bodyStmts : List Stmt) : RunM Unit := do
  if (← fold ctx cond).bind Value.asBool? == some false then recordDuration stmt 0
  else
    if hasTimingEffect (← get) bodyStmts then
      throw (unresolved "`while` loop with a timed body" range)
    invalidate bodyStmts
    recordDuration stmt 0

/-- Runs an `if`, given the runs of its branches. With an unknown condition both branches
run from the same machine, must end with the same clocks, and keep only the values they
agree on. -/
def branch (ctx : RunSetting) (stmt : Nat) (range : TextRange) (cond : Expr)
    (thenPart : RunM Unit) (elsePart : RunM Unit) : RunM Unit := do
  let before := (← get).machine.clocks
  match (← fold ctx cond).bind Value.asBool? with
  | some true => thenPart
  | some false => elsePart
  | none =>
    let saved := (← get).machine
    thenPart
    let afterThen := (← get).machine
    modify fun r => { r with machine := saved }
    elsePart
    let r ← get
    if !afterThen.clocks.agree r.machine.clocks then
      throw (unresolved "branches of an `if` with a dynamic condition take different times" range)
    set { r with machine := r.machine.merge afterThen }
  recordDuration stmt ((← get).machine.clocks.elapsedSince before)

mutual
/-- Runs a statement; calls run their bodies with `runBody`. -/
def execStmt (ctx : RunSetting) (runBody : List Stmt → RunM Unit) : Stmt → RunM Unit
  | .mk id range _ kind => execKind ctx runBody id range kind

/-- Runs a statement of a kind, with its number and range. -/
def execKind (ctx : RunSetting) (runBody : List Stmt → RunM Unit) (id : Nat)
    (range : TextRange) : StmtKind → RunM Unit
  | .grammar _ | .port _ | .output .. | .ret _ => pure ()
  | .frame name _ f p => declareFrame ctx name f p
  | .waveform name value _ => declareWaveform ctx id name value
  | .declare name _ init => do
    let s ← symbolOf name
    match init with
    | some e =>
      let _ ← inlineCall runBody ctx e range
      bind s (← fold ctx e)
    | none => bind s none
  | .input name _ => do bind (← symbolOf name) none
  | .subroutine name params _ body | .defcal name params _ _ body => do
    let s ← symbolOf name
    modify fun r => { r with callables := r.callables.insert s ⟨params, body⟩ }
  | .cal body => execBlock ctx runBody body
  | .gate name args _ => do recordDuration id (← invoke runBody ctx name args range)
  | .expr e => do
    match ← inlineCall runBody ctx e range with
    | some t => recordDuration id t
    | none => pure ()
  | .assign target op value => do
    let _ ← inlineCall runBody ctx value range
    let s ← symbolOf target
    match op with
    | none => bind s (← fold ctx value)
    | some o => bind s (← fold ctx (.binary (.arith o) (.ident target) value))
  | .forLoop var _ it body => forLoop ctx id range var it body (execBlock ctx runBody body)
  | .whileLoop cond body => whileLoop ctx id range cond body
  | .branch cond t e =>
    branch ctx id range cond (execBlock ctx runBody t)
      (match e with
        | some b => execBlock ctx runBody b
        | none => pure ())
  | .delay d frames => delay ctx id range d frames
  | .play f w => pulse ctx id range .play f w
  | .capture f w => pulse ctx id range .capture f w
  | .barrier frames recorded => barrier ctx id range frames recorded
  | .update op f v => update ctx id op f v

/-- Runs a block of statements in order. -/
def execBlock (ctx : RunSetting) (runBody : List Stmt → RunM Unit) : List Stmt → RunM Unit
  | [] => pure ()
  | s :: rest => do
    execStmt ctx runBody s
    execBlock ctx runBody rest
end

/-- Runs a block with calls nested at most `depth` deep. -/
def runBlock (ctx : RunSetting) : Nat → List Stmt → RunM Unit
  | 0, _ => throw (unresolved "calls nested too deeply" {})
  | depth + 1, stmts => execBlock ctx (runBlock ctx depth) stmts

/-- The number of subroutine and defcal definitions in a program, which bounds how deeply
calls can nest. -/
def definitionCount (p : Program) : Nat :=
  (Stmt.walkList p).countP fun s =>
    match s.kind with
    | .subroutine .. | .defcal .. => true
    | _ => false

/-- The report of a finished run: clocks and frame states of the declared frames by name,
and the events in the order they happened. -/
def report (r : Run) : ClockReport :=
  let m := r.machine
  let named := m.clocks.frames.map fun f => (r.frameName f, f)
  { finalClocks := named.foldl (fun acc (n, f) => insertByName n (m.clocks.get f) acc) []
    frameStates := named.foldl
      (fun acc (n, f) => insertByName n ((m.frameStates.get? f).getD {}) acc) []
    barriers := r.barriers.toList
    events := r.events.toList
    waveforms := r.waveforms.toList
    declaredWaveforms := byStatement (r.declaredWaveforms.toList.map fun (k, v) => (k, v.toList))
    loopTrips := byStatement r.loopTrips.toList
    warnings := r.warnings.toList }

/-- The times each barrier synchronized at, in the order of its evaluations: read off the
barrier log from its end, so that every time goes in front of the later ones. -/
def syncTimes (r : Run) : Std.HashMap Nat (List Nat) :=
  r.barriers.foldr (fun b m => m.insert b.stmt (b.time :: m.getD b.stmt [])) {}

end Run

mutual
/-- Writes the durations and synchronization times of a run onto a statement and the
statements nested in it; statements the run did not evaluate keep what they had. -/
def Stmt.annotate (durations : Std.HashMap Nat SampleRange)
    (syncTimes : Std.HashMap Nat (List Nat)) : Stmt → Stmt
  | .mk id range d kind =>
    .mk id range ((durations.get? id).orElse fun _ => d)
      (StmtKind.annotate durations syncTimes id kind)

/-- Annotates the blocks of a statement kind; a barrier takes its synchronization times. -/
def StmtKind.annotate (durations : Std.HashMap Nat SampleRange)
    (syncTimes : Std.HashMap Nat (List Nat)) (id : Nat) : StmtKind → StmtKind
  | .subroutine n ps r b => .subroutine n ps r (Stmt.annotateList durations syncTimes b)
  | .defcal n ps qs r b => .defcal n ps qs r (Stmt.annotateList durations syncTimes b)
  | .cal b => .cal (Stmt.annotateList durations syncTimes b)
  | .forLoop v t it b => .forLoop v t it (Stmt.annotateList durations syncTimes b)
  | .whileLoop c b => .whileLoop c (Stmt.annotateList durations syncTimes b)
  | .branch c t e =>
    .branch c (Stmt.annotateList durations syncTimes t)
      (match e with
        | some b => some (Stmt.annotateList durations syncTimes b)
        | none => none)
  | .barrier fs ts => .barrier fs (syncTimes.getD id ts)
  | k => k

/-- Annotates every statement of a block. -/
def Stmt.annotateList (durations : Std.HashMap Nat SampleRange)
    (syncTimes : Std.HashMap Nat (List Nat)) : List Stmt → List Stmt
  | [] => []
  | s :: rest => Stmt.annotate durations syncTimes s :: Stmt.annotateList durations syncTimes rest
end

namespace Program

/-- Runs an analyzed program on its frame clocks. -/
def run (ctx : RunSetting) (p : Program) : Except SemanticError Run :=
  (Run.runBlock ctx (Run.definitionCount p + 1) p |>.run {}).map (·.2)

/-- Resolves the duration of every statement of an analyzed program: the report of the run,
and the program with every evaluated statement's samples and every barrier's
synchronization times written onto it. -/
def resolve (registry : Registry) (sampleRate : Float) (p : Program) :
    Except SemanticError (ClockReport × Program) := do
  let r ← run ⟨registry, sampleRate, .record⟩ p
  pure (r.report, Stmt.annotateList r.durations r.syncTimes p)

/-- Runs a program again with every barrier held to the times recorded on it; `label` names
the program when a frame would have to go back in time. -/
def replay (registry : Registry) (sampleRate : Float) (label : String) (p : Program) :
    Except SemanticError ClockReport :=
  Run.report <$> run ⟨registry, sampleRate, .replay label⟩ p

end Program

end PulseCompiler
