import PulseCompiler.Proofs.Timing.Steps
import PulseCompiler.Proofs.Timing.Ranges
import Mathlib.Data.List.Perm.Subperm
set_option autoImplicit false

/-!
# Calls nest no deeper than the program defines

`Program.run` runs calls with a depth bound, one more than the number of subroutine and
defcal definitions of the program, and fails where the bound runs out. It never runs out. A
call refuses a callee already on the call stack, so the stack holds distinct symbols, each
defined by the program (`Program.CallStack`); there are at most as many as the program has
definitions, and a call is made only while there is room for one more. Where the depth runs
out, `Run.runBlockWith` runs any fallback in place of the error, and the run is the same
whatever the fallback (`Program.run_within_bounds`): the place is never reached.

The proof runs two copies of a block from the same state, which differ only in how they run
the bodies of calls (`Run.Agrees`), and shows statement by statement that they agree while
the callables are those of the program and the call stack is left as it was (`Run.Nested`).

Loops are bounded as well: a range loop runs at most `maxLoopTrips` values and a set loop one
trip per element, and a `while` loop never runs its body.
-/

namespace PulseCompiler

/-! ### Walks are closed under nesting -/

mutual
/-- Every statement nested in a statement has its own walk inside the statement's walk. -/
theorem Stmt.walk_subset_walk : ∀ (s : Stmt) {t : Stmt}, t ∈ s.walk → t.walk ⊆ s.walk
  | .mk id range d kind, t, ht => by
    have unfolded : (Stmt.mk id range d kind).walk = .mk id range d kind :: kind.walkBlocks := rfl
    rw [unfolded] at ht ⊢
    rcases List.mem_cons.mp ht with rfl | inner
    · exact List.Subset.refl _
    · exact List.Subset.trans (StmtKind.walk_subset_walkBlocks kind inner)
        (List.subset_cons_self _ _)

theorem StmtKind.walk_subset_walkBlocks :
    ∀ (k : StmtKind) {t : Stmt}, t ∈ k.walkBlocks → t.walk ⊆ k.walkBlocks
  | .subroutine _ _ _ b, _, ht | .defcal _ _ _ _ b, _, ht | .cal b, _, ht
  | .forLoop _ _ _ b, _, ht | .whileLoop _ b, _, ht => Stmt.walk_subset_walkList b ht
  | .branch _ tb (some eb), _, ht => by
    simp only [StmtKind.walkBlocks, List.mem_append] at ht ⊢
    rcases ht with inThen | inElse
    · exact List.Subset.trans (Stmt.walk_subset_walkList tb inThen) (List.subset_append_left _ _)
    · exact List.Subset.trans (Stmt.walk_subset_walkList eb inElse) (List.subset_append_right _ _)
  | .branch _ tb none, _, ht => by
    simp only [StmtKind.walkBlocks, List.append_nil] at ht ⊢
    exact Stmt.walk_subset_walkList tb ht
  | .grammar _, _, ht | .port _, _, ht | .frame .., _, ht | .waveform .., _, ht
  | .declare .., _, ht | .input .., _, ht | .output .., _, ht | .gate .., _, ht
  | .expr _, _, ht | .assign .., _, ht | .ret _, _, ht | .delay .., _, ht | .play .., _, ht
  | .capture .., _, ht | .barrier .., _, ht | .update .., _, ht => nomatch ht

theorem Stmt.walk_subset_walkList : ∀ (b : List Stmt) {t : Stmt}, t ∈ Stmt.walkList b →
    t.walk ⊆ Stmt.walkList b
  | [], _, ht => nomatch ht
  | s :: rest, _, ht => by
    rw [Stmt.walkList, List.mem_append] at ht
    rw [Stmt.walkList]
    rcases ht with here | later
    · exact List.Subset.trans (Stmt.walk_subset_walk s here) (List.subset_append_left _ _)
    · exact List.Subset.trans (Stmt.walk_subset_walkList rest later)
        (List.subset_append_right _ _)
end

namespace Program

variable {p : Program}

/-- The body of a callee of a program is made of statements of the program. -/
theorem Defines.body_subset {g : SymbolId} {callee : Callable} (h : p.Defines g callee) :
    Stmt.walkList callee.body ⊆ Stmt.walkList p := by
  obtain ⟨st, hst, hdef⟩ := h
  have inner : Stmt.walkList callee.body ⊆ st.kind.walkBlocks :=
    Stmt.walkList_subset_walkBlocks (by simp [StmtKind.blocks_of_definition? hdef])
  have nested : st.kind.walkBlocks ⊆ st.walk := by
    rw [Stmt.walk_eq]
    exact List.subset_cons_self _ _
  exact List.Subset.trans inner
    (List.Subset.trans nested (Stmt.walk_subset_walkList p hst))

/-- A program defines at most as many symbols as it has definitions. -/
theorem definitions_length_le (p : Program) : p.definitions.length ≤ Run.definitionCount p := by
  rw [definitions, List.length_filterMap_eq_countP, Run.definitionCount]
  refine List.countP_mono_left fun st _ named => ?_
  obtain ⟨id, range, d, kind⟩ := st
  cases kind <;> simp_all [StmtKind.definition?]

/-- A call stack of a program: distinct symbols of its definitions. -/
def CallStack (p : Program) (stack : List SymbolId) : Prop :=
  stack.Nodup ∧ ∀ s ∈ stack, s ∈ p.definitions

theorem CallStack.nil (p : Program) : p.CallStack [] :=
  ⟨List.nodup_nil, fun _ h => nomatch h⟩

/-- A call stack of a program is no longer than the program has definitions. -/
theorem CallStack.length_le {stack : List SymbolId} (h : p.CallStack stack) :
    stack.length ≤ Run.definitionCount p :=
  Nat.le_trans (List.subperm_of_subset h.1 h.2).length_le (definitions_length_le p)

/-- Pushing a defined callee that is not on a call stack gives a call stack. -/
theorem CallStack.push {stack : List SymbolId} (h : p.CallStack stack) {g : SymbolId}
    {callee : Callable} (hg : p.Defines g callee) (fresh : g ∉ stack) :
    p.CallStack (g :: stack) :=
  ⟨List.nodup_cons.mpr ⟨fresh, h.1⟩, fun s hs => by
    rcases List.mem_cons.mp hs with rfl | hs
    · exact mem_definitions hg
    · exact h.2 s hs⟩

end Program

namespace Run

/-- `runBlock`, with `fallback` run in place of the error where the depth runs out. -/
def runBlockWith (ctx : RunSetting) (fallback : List Stmt → RunM Unit) :
    Nat → List Stmt → RunM Unit
  | 0, stmts => fallback stmts
  | depth + 1, stmts => execBlock ctx (runBlockWith ctx fallback depth) stmts

theorem runBlock_eq_runBlockWith (ctx : RunSetting) : ∀ depth : Nat,
    runBlock ctx depth =
      runBlockWith ctx (fun _ => throw (unresolved "calls nested too deeply" {})) depth
  | 0 => rfl
  | depth + 1 => by
    funext stmts
    rw [runBlock, runBlockWith, runBlock_eq_runBlockWith ctx depth]

/-! ### Two runs that agree -/

/-- The callables of a run are those of program `p` and its call stack is `stack`. -/
structure Nested (p : Program) (stack : List SymbolId) (r : Run) : Prop where
  callables : ∀ s callee, r.callables[s]? = some callee → p.Defines s callee
  stack : r.callStack = stack

/-- From every run of `P`, `x` and `y` give the same result, and where `x` succeeds it ends in
a run of `Q`. -/
def Agrees {α : Type} (P : Run → Prop) (x y : RunM α) (Q : Run → Prop) : Prop :=
  ∀ r, P r → x.run r = y.run r ∧ ∀ a r', x.run r = .ok (a, r') → Q r'

/-- A step that keeps the callables and the call stack. -/
def Keeps {α : Type} (x : RunM α) : Prop :=
  ∀ r a r', x.run r = .ok (a, r') → r'.callables = r.callables ∧ r'.callStack = r.callStack

namespace Agrees

variable {α β : Type} {P Q R : Run → Prop}

theorem pure (a : α) (h : ∀ r, P r → Q r) : Agrees P (Pure.pure a : RunM α) (Pure.pure a) Q :=
  fun r hr => ⟨rfl, fun _ _ run => by cases run; exact h r hr⟩

theorem throw (e : SemanticError) : Agrees P (MonadExcept.throw e : RunM α)
    (MonadExcept.throw e) Q :=
  fun _ _ => ⟨rfl, fun _ _ run => nomatch run⟩

theorem bind {x y : RunM α} {f g : α → RunM β} (hx : Agrees P x y Q)
    (hf : ∀ a, Agrees Q (f a) (g a) R) : Agrees P (x >>= f) (y >>= g) R := by
  intro r hr
  obtain ⟨same, post⟩ := hx r hr
  rw [StateT.run_bind, StateT.run_bind, ← same]
  cases hrun : x.run r with
  | error e => exact ⟨rfl, fun _ _ run => nomatch run⟩
  | ok p =>
    obtain ⟨a, r'⟩ := p
    exact hf a r' (post a r' hrun)

theorem throw_bind (e : SemanticError) {f g : α → RunM β} :
    Agrees P ((MonadExcept.throw e : RunM α) >>= f) (MonadExcept.throw e >>= g) Q :=
  fun _ _ => ⟨rfl, fun _ _ run => nomatch run⟩

theorem get_bind {k k' : Run → RunM α} (hk : ∀ r, P r → Agrees P (k r) (k' r) Q) :
    Agrees P (MonadState.get >>= k) (MonadState.get >>= k') Q :=
  fun r hr => hk r hr r hr

theorem modify (f : Run → Run) (h : ∀ r, P r → Q (f r)) :
    Agrees P (modify f : RunM PUnit) (modify f) Q :=
  fun r hr => ⟨rfl, fun _ _ run => by cases run; exact h r hr⟩

/-- What follows the lookup of an identifier's symbol may use that the identifier names it. -/
theorem symbolOf_bind {i : Ident} {f g : SymbolId → RunM β}
    (hf : ∀ s, i.symbol = some s → Agrees P (f s) (g s) Q) :
    Agrees P (symbolOf i >>= f) (symbolOf i >>= g) Q := by
  unfold symbolOf
  cases named : i.symbol with
  | none => exact throw_bind _
  | some s =>
    simp only [pure_bind]
    exact hf s named

theorem map {x y : RunM α} (f : α → β) (hx : Agrees P x y Q) :
    Agrees P (f <$> x) (f <$> y) Q := by
  rw [map_eq_pure_bind, map_eq_pure_bind]
  exact hx.bind fun a => pure (f a) fun _ h => h

theorem forIn {γ : Type} (xs : List γ) (b : β) {f g : γ → β → RunM (ForInStep β)}
    (hf : ∀ x b, Agrees P (f x b) (g x b) P) :
    Agrees P (ForIn.forIn xs b f) (ForIn.forIn xs b g) P := by
  induction xs generalizing b with
  | nil => exact pure b fun _ h => h
  | cons x xs ih =>
    rw [List.forIn_cons, List.forIn_cons]
    refine (hf x b).bind fun step => ?_
    cases step with
    | done b' => exact pure b' fun _ h => h
    | yield b' => exact ih b'

end Agrees

variable {p : Program} {stack : List SymbolId}

/-- A step that keeps the callables and the call stack agrees with itself on nested runs. -/
theorem Keeps.agrees {α : Type} {x : RunM α} (h : Keeps x) :
    Agrees (Nested p stack) x x (Nested p stack) := fun r hr =>
  ⟨rfl, fun a r' run => by
    obtain ⟨callables, callStack⟩ := h r a r' run
    exact ⟨by rw [callables]; exact hr.callables, by rw [callStack]; exact hr.stack⟩⟩

theorem Keeps.of_quiet {α : Type} {x : RunM α} (h : Quiet x) : Keeps x := fun r a r' run =>
  ⟨congrArg Timing.callables (h r a r' run), congrArg Timing.callStack (h r a r' run)⟩

namespace Keeps

variable {α β : Type}

theorem pure (a : α) : Keeps (Pure.pure a : RunM α) := of_quiet (Quiet.pure a)

theorem throw (e : SemanticError) : Keeps (MonadExcept.throw e : RunM α) :=
  fun _ _ _ run => nomatch run

theorem bind {x : RunM α} {f : α → RunM β} (hx : Keeps x) (hf : ∀ a, Keeps (f a)) :
    Keeps (x >>= f) := fun r b r'' run => by
  obtain ⟨a, r', first, second⟩ := run_bind_eq_ok.mp run
  obtain ⟨callables₁, stack₁⟩ := hx r a r' first
  obtain ⟨callables₂, stack₂⟩ := hf a r' b r'' second
  exact ⟨callables₂.trans callables₁, stack₂.trans stack₁⟩

theorem get_bind {k : Run → RunM α} (hk : ∀ r, Keeps (k r)) : Keeps (MonadState.get >>= k) :=
  fun r a r' run => hk r r a r' (get_bind_run run)

theorem modify {f : Run → Run}
    (hf : ∀ r, (f r).callables = r.callables ∧ (f r).callStack = r.callStack) :
    Keeps (modify f : RunM PUnit) := fun r _ _ run => by
  cases run
  exact hf r

/-- Reading the run and writing it back with another machine, unless the machine read makes
the step fail, keeps the callables and the stack just read. -/
theorem get_setMachine (fails : Machine → Bool) (g : Machine → Machine) (e : SemanticError)
    {k : Unit → RunM α} (hk : Keeps (k ())) :
    Keeps (MonadState.get >>= fun r =>
      if fails r.machine = true then
        (MonadExcept.throw e : RunM Unit) >>= fun _ =>
          MonadState.set { r with machine := g r.machine } >>= k
      else MonadState.set { r with machine := g r.machine } >>= k) := by
  intro r a r' run
  have step := get_bind_run run
  split at step
  · obtain ⟨_, _, failed, -⟩ := run_bind_eq_ok.mp step
    exact nomatch failed
  · obtain ⟨_, r₁, hset, rest⟩ := run_bind_eq_ok.mp step
    cases hset
    obtain ⟨callables, callStack⟩ := hk _ _ _ rest
    exact ⟨callables, callStack⟩

theorem forIn {γ : Type} (xs : List γ) (b : β) {f : γ → β → RunM (ForInStep β)}
    (hf : ∀ x b, Keeps (f x b)) : Keeps (ForIn.forIn xs b f) := by
  induction xs generalizing b with
  | nil => exact pure b
  | cons x xs ih =>
    rw [List.forIn_cons]
    refine (hf x b).bind fun step => ?_
    cases step with
    | done b' => exact pure b'
    | yield b' => exact ih b'

end Keeps

/-! ### Steps that never call -/

theorem symbolOf_keeps (i : Ident) : Keeps (symbolOf i) := Keeps.of_quiet (symbolOf_quiet i)

theorem fold_keeps (ctx : RunSetting) (e : Expr) : Keeps (fold ctx e) :=
  Keeps.of_quiet (fold_quiet ctx e)

theorem bind_keeps (s : SymbolId) (v : Option Value) : Keeps (bind s v) := fun r _ _ run => by
  rw [bind_run] at run
  cases run
  exact ⟨rfl, rfl⟩

theorem recordDuration_keeps (stmt samples : Nat) : Keeps (recordDuration stmt samples) :=
  Keeps.of_quiet (recordDuration_quiet stmt samples)

theorem declareFrame_keeps (ctx : RunSetting) (name : Ident) (f ph : Expr) :
    Keeps (declareFrame ctx name f ph) := fun _ _ _ run => by
  obtain ⟨_, -, t⟩ := declareFrame_run run
  exact ⟨congrArg Timing.callables t, congrArg Timing.callStack t⟩

theorem declareWaveform_keeps (ctx : RunSetting) (stmt : Nat) (name : Ident) (value : Expr) :
    Keeps (declareWaveform ctx stmt name value) := fun _ _ _ run => by
  obtain ⟨_, -, t⟩ := declareWaveform_run run
  exact ⟨congrArg Timing.callables t, congrArg Timing.callStack t⟩

theorem delay_keeps (ctx : RunSetting) (stmt : Nat) (range : TextRange) (d : Expr)
    (frames : List Ident) : Keeps (delay ctx stmt range d frames) := fun _ _ _ run => by
  obtain ⟨-, -, -, -, -, -, t⟩ := delay_run run
  exact ⟨congrArg Timing.callables t, congrArg Timing.callStack t⟩

theorem pulse_keeps (ctx : RunSetting) (stmt : Nat) (range : TextRange) (kind : TimedKind)
    (frame : Ident) (waveform : Expr) : Keeps (pulse ctx stmt range kind frame waveform) :=
  fun _ _ _ run => by
    obtain ⟨-, -, -, -, -, -, t⟩ := pulse_run run
    exact ⟨congrArg Timing.callables t, congrArg Timing.callStack t⟩

theorem update_keeps (ctx : RunSetting) (stmt : Nat) (op : FrameOp) (frame : Ident)
    (value : Expr) : Keeps (update ctx stmt op frame value) := fun _ _ _ run => by
  obtain ⟨-, -, t⟩ := update_run run
  exact ⟨congrArg Timing.callables t, congrArg Timing.callStack t⟩

theorem invalidate_keeps (stmts : List Stmt) : Keeps (invalidate stmts) := fun _ _ _ run => by
  obtain ⟨-, t⟩ := invalidate_run run
  exact ⟨congrArg Timing.callables t, congrArg Timing.callStack t⟩

theorem whileLoop_keeps (ctx : RunSetting) (stmt : Nat) (range : TextRange) (cond : Expr)
    (bodyStmts : List Stmt) : Keeps (whileLoop ctx stmt range cond bodyStmts) :=
  fun _ _ _ run => by
    rcases whileLoop_run run with ⟨-, t⟩ | ⟨-, forgot⟩
    · exact ⟨congrArg Timing.callables t, congrArg Timing.callStack t⟩
    · exact ⟨congrArg Timing.callables forgot.2, congrArg Timing.callStack forgot.2⟩

/-- A barrier, recording or replaying, changes the clocks, the log and the replay cursors. -/
theorem barrier_keeps (ctx : RunSetting) (stmt : Nat) (range : TextRange)
    (frames : Option (List Ident)) (recorded : List Nat) :
    Keeps (barrier ctx stmt range frames recorded) := by
  intro r u r' run
  unfold barrier at run
  extract_lets afterFrames at run
  have frames_ok : ∀ fs, Keeps (afterFrames fs) := by
    intro fs r₁ u r₂ run
    have step := get_bind_run run
    extract_lets clocks latest afterTime at step
    have time_ok : ∀ time, Keeps (afterTime time) := by
      intro time
      dsimp only [afterTime]
      exact Keeps.bind (Keeps.modify fun _ => ⟨rfl, rfl⟩) fun _ => recordDuration_keeps _ _
    split at step
    · obtain ⟨time, r₃, htime, rest⟩ := run_bind_eq_ok.mp step
      cases htime
      exact time_ok _ _ _ _ rest
    · have replayed := get_bind_run step
      split at replayed
      · obtain ⟨_, r₄, hset, check⟩ := run_bind_eq_ok.mp replayed
        cases hset
        split at check
        · obtain ⟨_, r₅, htime, rest⟩ := run_bind_eq_ok.mp check
          cases htime
          obtain ⟨callables, callStack⟩ := time_ok _ _ _ _ rest
          exact ⟨callables, callStack⟩
        · obtain ⟨_, _, failed, -⟩ := run_bind_eq_ok.mp check
          exact nomatch failed
      · obtain ⟨_, _, failed, -⟩ := run_bind_eq_ok.mp replayed
        exact nomatch failed
  split at run
  · obtain ⟨fs, r₁, hfs, rest⟩ := run_bind_eq_ok.mp (get_bind_run run)
    cases hfs
    exact frames_ok _ _ _ _ rest
  · obtain ⟨fs, r₁, hfs, rest⟩ := run_bind_eq_ok.mp run
    obtain ⟨-, rfl⟩ := resolveFrames_run hfs
    exact frames_ok _ _ _ _ rest

theorem bindParam_keeps (ctx : RunSetting) (x : Param × Expr) (u : PUnit) :
    Keeps (bindParam ctx x u) := fun _ _ _ run => by
  obtain ⟨param, arg⟩ := x
  rcases (bindParam_run run).2 with
    ⟨-, rfl⟩ | ⟨_, -, ⟨-, -, rfl⟩ | ⟨-, _, _, -, -, rfl⟩ | ⟨-, rfl⟩⟩
  all_goals exact ⟨rfl, rfl⟩

/-! ### Steps that call -/

theorem Nested.push {r : Run} (h : Nested p stack r) (g : SymbolId) :
    Nested p (g :: stack) { r with callStack := g :: r.callStack } :=
  ⟨h.callables, by rw [h.stack]⟩

theorem Nested.pop {r : Run} {g : SymbolId} (h : Nested p (g :: stack) r) :
    Nested p stack { r with callStack := r.callStack.drop 1 } :=
  ⟨h.callables, by simp [h.stack]⟩

theorem Nested.define {r : Run} (h : Nested p stack r) {g : SymbolId} {callee : Callable}
    (hg : p.Defines g callee) :
    Nested p stack { r with callables := r.callables.insert g callee } := by
  refine ⟨fun s c found => ?_, h.stack⟩
  by_cases here : g = s
  · subst here
    simp only [Std.HashMap.getElem?_insert_self, Option.some.injEq] at found
    exact found ▸ hg
  · simp only [Std.HashMap.getElem?_insert, beq_iff_eq, here, if_false] at found
    exact h.callables s c found

/-- The bodies of callees run alike from a nested run with a fresh defined callee pushed. -/
def BodiesAgree (p : Program) (stack : List SymbolId) (runBody runBody' : List Stmt → RunM Unit) :
    Prop :=
  ∀ g callee, p.Defines g callee → g ∉ stack →
    Agrees (Nested p (g :: stack)) (runBody callee.body) (runBody' callee.body)
      (Nested p (g :: stack))

section Calls

variable (ctx : RunSetting) {runBody runBody' : List Stmt → RunM Unit}

/-- A call looks its callee up among the callables of the program and refuses one already on
the stack, so it runs a body with a fresh defined callee pushed, and pops it after. -/
theorem invoke_agrees (hbody : BodiesAgree p stack runBody runBody') (name : Ident)
    (args : List Expr) (range : TextRange) :
    Agrees (Nested p stack) (invoke runBody ctx name args range)
      (invoke runBody' ctx name args range) (Nested p stack) := by
  unfold invoke
  refine (symbolOf_keeps name).agrees.bind fun sym => Agrees.get_bind fun r hr => ?_
  cases found : r.callables.get? sym with
  | none => exact Agrees.throw _
  | some callee =>
    have defined : p.Defines sym callee :=
      hr.callables sym callee (by simpa [Std.HashMap.get?_eq_getElem?] using found)
    dsimp -zeta only
    refine Agrees.get_bind fun r₁ hr₁ => ?_
    extract_lets call call'
    split
    · exact Agrees.throw_bind _
    · rename_i onStack
      have fresh : sym ∉ stack := by
        rw [← hr₁.stack]
        simpa using onStack
      refine (Keeps.forIn _ _ fun x u => bindParam_keeps ctx x u).agrees.bind fun _ => ?_
      refine Agrees.get_bind fun _ _ => ?_
      exact (Agrees.modify _ fun r hr => hr.push sym).bind fun _ =>
        (hbody sym callee defined fresh).bind fun _ =>
          (Agrees.modify _ fun r hr => hr.pop).bind fun _ =>
            Agrees.get_bind fun _ _ => Agrees.pure _ fun _ h => h

theorem inlineCall_agrees (hbody : BodiesAgree p stack runBody runBody') (e : Expr)
    (range : TextRange) :
    Agrees (Nested p stack) (inlineCall runBody ctx e range) (inlineCall runBody' ctx e range)
      (Nested p stack) := by
  unfold inlineCall
  split
  · split
    · refine Agrees.get_bind fun _ _ => ?_
      split
      · exact (invoke_agrees ctx hbody _ _ range).map some
      · exact Agrees.pure none fun _ h => h
    · exact Agrees.pure none fun _ h => h
  · exact Agrees.pure none fun _ h => h

end Calls

/-- A `for` loop runs its body on every trip; with unknown values it does not run it. -/
theorem forLoop_agrees (ctx : RunSetting) (stmt : Nat) (range : TextRange) (var : Ident)
    (it : Iteration) (bodyStmts : List Stmt) {body body' : RunM Unit}
    (hbody : Agrees (Nested p stack) body body' (Nested p stack)) :
    Agrees (Nested p stack) (forLoop ctx stmt range var it bodyStmts body)
      (forLoop ctx stmt range var it bodyStmts body') (Nested p stack) := by
  unfold forLoop
  refine (symbolOf_keeps var).agrees.bind fun v => Agrees.get_bind fun r _ => ?_
  split
  · refine Keeps.agrees (Keeps.get_bind fun _ => ?_)
    extract_lets forget
    have forgets : Keeps (forget ()) := (bind_keeps v none).bind fun _ => invalidate_keeps _
    split
    · exact (Keeps.throw _).bind fun _ => forgets
    · exact forgets
  · refine (Keeps.modify fun _ => by exact ⟨rfl, rfl⟩).agrees.bind fun _ =>
      Agrees.get_bind fun _ _ => ?_
    have trip : ∀ x : Value, Agrees (Nested p stack)
        (do bind v (some x); body; pure (ForInStep.yield PUnit.unit))
        (do bind v (some x); body'; pure (ForInStep.yield PUnit.unit)) (Nested p stack) :=
      fun x => (bind_keeps v (some x)).agrees.bind fun _ =>
        hbody.bind fun _ => Agrees.pure _ fun _ h => h
    exact (Agrees.forIn _ _ fun x _ => trip x).bind fun _ =>
      (Keeps.get_bind fun _ => recordDuration_keeps _ _).agrees

/-- An `if` runs the branches it selects, or both from the same machine. -/
theorem branch_agrees (ctx : RunSetting) (stmt : Nat) (range : TextRange) (cond : Expr)
    {thenPart thenPart' elsePart elsePart' : RunM Unit}
    (hthen : Agrees (Nested p stack) thenPart thenPart' (Nested p stack))
    (helse : Agrees (Nested p stack) elsePart elsePart' (Nested p stack)) :
    Agrees (Nested p stack) (branch ctx stmt range cond thenPart elsePart)
      (branch ctx stmt range cond thenPart' elsePart') (Nested p stack) := by
  unfold branch
  refine Agrees.get_bind fun _ _ => ?_
  extract_lets before finish
  have finished : Keeps (finish ()) := Keeps.get_bind fun _ => recordDuration_keeps _ _
  refine (fold_keeps ctx cond).agrees.bind fun val => ?_
  split
  · exact hthen.bind fun _ => finished.agrees
  · exact helse.bind fun _ => finished.agrees
  · refine Agrees.get_bind fun _ _ => hthen.bind fun _ => Agrees.get_bind fun r' _ => ?_
    exact (Keeps.modify fun _ => by exact ⟨rfl, rfl⟩).agrees.bind fun _ => helse.bind fun _ =>
      (Keeps.get_setMachine (fun m => !r'.machine.clocks.agree m.clocks) (·.merge r'.machine) _
        finished).agrees

/-! ### Blocks of the program -/

section Statements

variable (ctx : RunSetting) {runBody runBody' : List Stmt → RunM Unit}

mutual
/-- A statement of the program runs alike under two runners of call bodies that agree. The
induction on the statement carries that it stands in the program, so that a definition it makes
is one of the program's. -/
theorem execStmt_agrees (hbody : BodiesAgree p stack runBody runBody') :
    ∀ s : Stmt, s.walk ⊆ Stmt.walkList p →
      Agrees (Nested p stack) (execStmt ctx runBody s) (execStmt ctx runBody' s) (Nested p stack)
  | .mk id range d kind, hs => by
    rw [Stmt.walk_eq] at hs
    exact execKind_agrees hbody id range kind ⟨_, hs List.mem_cons_self, rfl⟩
      (List.Subset.trans (List.subset_cons_self _ _) hs)

/-- A statement of the program, of any kind, runs alike under runners that agree. -/
theorem execKind_agrees (hbody : BodiesAgree p stack runBody runBody') (id : Nat)
    (range : TextRange) : ∀ k : StmtKind, (∃ st ∈ Stmt.walkList p, st.kind = k) →
      k.walkBlocks ⊆ Stmt.walkList p →
      Agrees (Nested p stack) (execKind ctx runBody id range k) (execKind ctx runBody' id range k)
        (Nested p stack)
  | .grammar _, _, _ | .port _, _, _ | .output .., _, _ | .ret _, _, _ =>
    Agrees.pure () fun _ h => h
  | .frame name _ f ph, _, _ => (declareFrame_keeps ctx name f ph).agrees
  | .waveform name value _, _, _ => (declareWaveform_keeps ctx id name value).agrees
  | .declare name _ (some e), _, _ =>
    (symbolOf_keeps name).agrees.bind fun s => (inlineCall_agrees ctx hbody e range).bind fun _ =>
      ((fold_keeps ctx e).bind fun v => bind_keeps s v).agrees
  | .declare name _ none, _, _ | .input name _, _, _ =>
    ((symbolOf_keeps name).bind fun s => bind_keeps s none).agrees
  | .subroutine name params _ body, ⟨st, hst, kind⟩, _
  | .defcal name params _ _ body, ⟨st, hst, kind⟩, _ =>
    Agrees.symbolOf_bind fun s named => Agrees.modify _ fun _ hr =>
      hr.define ⟨st, hst, by rw [kind]; simp [StmtKind.definition?, named]⟩
  | .cal body, _, hblocks => execBlock_agrees hbody body hblocks
  | .gate name args _, _, _ =>
    (invoke_agrees ctx hbody name args range).bind fun t => (recordDuration_keeps id t).agrees
  | .expr e, _, _ => (inlineCall_agrees ctx hbody e range).bind fun res => by
    cases res with
    | some t => exact (recordDuration_keeps id t).agrees
    | none => exact Agrees.pure () fun _ h => h
  | .assign target op value, _, _ =>
    (inlineCall_agrees ctx hbody value range).bind fun _ => Keeps.agrees
      ((symbolOf_keeps target).bind fun s => by
        cases op <;> exact (fold_keeps ctx _).bind fun v => bind_keeps s v)
  | .forLoop var _ it body, _, hblocks =>
    forLoop_agrees ctx id range var it body (execBlock_agrees hbody body hblocks)
  | .whileLoop cond body, _, _ => (whileLoop_keeps ctx id range cond body).agrees
  | .branch cond t (some e), _, hblocks =>
    branch_agrees ctx id range cond
      (execBlock_agrees hbody t (List.Subset.trans (List.subset_append_left _ _) hblocks))
      (execBlock_agrees hbody e (List.Subset.trans (List.subset_append_right _ _) hblocks))
  | .branch cond t none, _, hblocks =>
    branch_agrees ctx id range cond
      (execBlock_agrees hbody t (by simpa [StmtKind.walkBlocks] using hblocks))
      (Agrees.pure () fun _ h => h)
  | .delay d frames, _, _ => (delay_keeps ctx id range d frames).agrees
  | .play f w, _, _ => (pulse_keeps ctx id range .play f w).agrees
  | .capture f w, _, _ => (pulse_keeps ctx id range .capture f w).agrees
  | .barrier frames recorded, _, _ => (barrier_keeps ctx id range frames recorded).agrees
  | .update op f v, _, _ => (update_keeps ctx id op f v).agrees

/-- A block of the program runs alike under runners of call bodies that agree. -/
theorem execBlock_agrees (hbody : BodiesAgree p stack runBody runBody') :
    ∀ b : List Stmt, Stmt.walkList b ⊆ Stmt.walkList p →
      Agrees (Nested p stack) (execBlock ctx runBody b) (execBlock ctx runBody' b)
        (Nested p stack)
  | [], _ => Agrees.pure () fun _ h => h
  | s :: rest, hb => by
    rw [Stmt.walkList] at hb
    exact (execStmt_agrees hbody s (List.Subset.trans (List.subset_append_left _ _) hb)).bind
      fun _ => execBlock_agrees hbody rest (List.Subset.trans (List.subset_append_right _ _) hb)
end

end Statements

/-- With more depth left than room on the call stack, a block of the program runs alike
whatever runs where the depth runs out: every call pushes a fresh defined callee, so the
depth never runs out. -/
theorem runBlockWith_agrees (ctx : RunSetting) (fallback fallback' : List Stmt → RunM Unit) :
    ∀ (depth : Nat) (stack : List SymbolId), p.CallStack stack →
      definitionCount p < depth + stack.length → ∀ b, Stmt.walkList b ⊆ Stmt.walkList p →
      Agrees (Nested p stack) (runBlockWith ctx fallback depth b)
        (runBlockWith ctx fallback' depth b) (Nested p stack)
  | 0, _, calls, room, _, _ => absurd calls.length_le (by omega)
  | depth + 1, stack, calls, room, b, hb =>
    execBlock_agrees ctx (fun g callee hg fresh =>
      runBlockWith_agrees ctx fallback fallback' depth (g :: stack) (calls.push hg fresh)
        (by simp only [List.length_cons]; omega) callee.body hg.body_subset) b hb

end Run

/-! ### Loops -/

theorem Fold.evalList_length {ctx : Fold.Context} : ∀ {es : List Expr} {vs : List Value},
    Fold.evalList ctx es = .ok vs → vs.length = es.length
  | [], vs, h => by
    cases h
    rfl
  | e :: rest, vs, h => by
    simp only [Fold.evalList, except_bind_eq_ok] at h
    obtain ⟨v, -, vs', rest_ok, h⟩ := h
    cases h
    simp [Fold.evalList_length rest_ok]

namespace Run

theorem loopValues_set_length (ctx : RunSetting) (env : Env) (elems : List Expr)
    {values : List Value} (h : loopValues ctx env (.set elems) = .ok values) :
    values.length = elems.length := by
  have evaluated : Fold.evalList ⟨ctx.registry, ctx.sampleRate, env⟩ elems = .ok values := h
  exact Fold.evalList_length evaluated

end Run

/-! ### Runs of a program -/

namespace Program

/-- The run of a program never reaches its depth bound: with any fallback where the depth runs
out, the run is the same. Every range loop runs at most `maxLoopTrips` trips and every set
loop one per element, and a `while` loop never runs its body: it leaves what timing depends
on as it was, or only forgets what its body writes. -/
theorem run_within_bounds (ctx : RunSetting) (p : Program) :
    (∀ fallback : List Stmt → RunM Unit,
      ((Run.runBlockWith ctx fallback (Run.definitionCount p + 1) p).run {}).map (·.2) =
        p.run ctx) ∧
    (∀ env start step stop values,
      Run.loopValues ctx env (.range start step stop) = .ok values →
        values.length ≤ maxLoopTrips) ∧
    (∀ env elems values,
      Run.loopValues ctx env (.set elems) = .ok values → values.length = elems.length) ∧
    (∀ stmt range cond body (r r' : Run),
      (Run.whileLoop ctx stmt range cond body).run r = .ok ((), r') →
        r'.timing = r.timing ∨ r.timing.Forgot r'.timing (Run.writtenBy body)) := by
  refine ⟨fun fallback => ?_, fun env start step stop _ h =>
    Run.loopValues_range_length_le ctx env start step stop h,
    fun env elems _ h => Run.loopValues_set_length ctx env elems h, fun _ _ _ _ r r' run => ?_⟩
  · have start : Run.Nested p [] {} := ⟨fun s c found => by simp at found, rfl⟩
    have agree := Run.runBlockWith_agrees ctx fallback
      (fun _ => throw (Run.unresolved "calls nested too deeply" {})) (Run.definitionCount p + 1) []
      (CallStack.nil p) (by simp) p (List.Subset.refl _) {} start
    rw [Program.run, Run.runBlock_eq_runBlockWith, agree.1]
  · rcases Run.whileLoop_run run with ⟨-, same⟩ | ⟨-, forgot⟩
    · exact Or.inl same
    · exact Or.inr forgot

/-- A range of ten values is within the bound. -/
theorem run_within_bounds_tenTrips :
    Run.loopValues ⟨Registry.empty, 1.0, .record⟩ {}
        (.range (.lit (.int 1)) none (.lit (.int 10))) = .ok ((List.range' 1 10).map .int) ∧
      ((List.range' 1 10).map Value.int).length ≤ maxLoopTrips :=
  have evaluated : Run.loopValues ⟨Registry.empty, 1.0, .record⟩ {}
      (.range (.lit (.int 1)) none (.lit (.int 10))) = .ok ((List.range' 1 10).map .int) := by
    rfl
  ⟨evaluated,
    (run_within_bounds ⟨Registry.empty, 1.0, .record⟩ []).2.1 {} _ none _ _ evaluated⟩

end Program

end PulseCompiler
