import PulseCompiler.Analysis.Checker
import PulseCompiler.Proofs.Analysis.ScopeTable
import PulseCompiler.Proofs.Analysis.Lexical
set_option autoImplicit false

/-!
# Contracts of analysis steps

A contract of an analysis step says that from every state satisfying a precondition the step
either succeeds, with a value and a state satisfying a postcondition, or fails with an error
satisfying an error condition. Contracts compose along the monad (`Contract.bind`), so the
contract of a statement's analysis is assembled from those of the steps it is made of.

Most steps only read the analyzer's state: they resolve names and check types, and the value
they give is described in the state they ran on (`ReadOnly`). Declaring a name binds it in the
innermost scope (`declareIdent_contract`). None of these steps reports a statement out of
place, an error that only the placement check of `checkStmt` raises, and none changes the
shape of the scope table (`Steady`).
-/

namespace PulseCompiler

/-- An error that reports a statement standing where it may not. -/
def SemanticError.Misplaced (e : SemanticError) : Prop :=
  ∃ keyword scope, e.cause = .illegalPlacement keyword scope

theorem ErrorCause.not_misplaced_ofSymbolError (name : String) (e : SymbolError)
    (range : TextRange) : ¬ (⟨ErrorCause.ofSymbolError name e, range⟩ : SemanticError).Misplaced := by
  rintro ⟨keyword, scope, h⟩
  cases e <;> simp [ErrorCause.ofSymbolError] at h

/-- An identifier carries the number that looking its name up in a table finds. -/
def SymbolTable.Resolves (t : SymbolTable) (i : Ident) : Prop :=
  ∃ r, t.resolve i.name = .ok r ∧ i.symbol = some r.id

/-- A qubit operand whose name, if it has one, resolves in a table. -/
def SymbolTable.ResolvesQubit (t : SymbolTable) : Qubit → Prop
  | .named i => t.Resolves i
  | .hardware _ => True

namespace Checker

/-- What a run of a step satisfies: the postcondition of its value and final state, or the
error condition of its error. -/
def Holds {α : Type} (post : α → Checker → Prop) (err : SemanticError → Prop) :
    Except SemanticError (α × Checker) → Prop
  | .ok (a, c) => post a c
  | .error e => err e

/-- A contract of an analysis step: from a state satisfying `pre` it succeeds with a value and
a state satisfying `post`, or fails with an error satisfying `err`. -/
def Contract {α : Type} (x : CheckM α) (pre : Checker → Prop) (post : α → Checker → Prop)
    (err : SemanticError → Prop) : Prop :=
  ∀ c, pre c → Holds post err (x.run c)

namespace Contract

variable {α β : Type} {pre pre' : Checker → Prop} {post post' : α → Checker → Prop}
  {err err' : SemanticError → Prop}

/-- A run that succeeded satisfies the contract's postcondition. -/
theorem ok {x : CheckM α} (h : Contract x pre post err) {c c' : Checker} {a : α} (hc : pre c)
    (hx : x.run c = .ok (a, c')) : post a c' := by
  have holds := h c hc
  rw [hx] at holds
  exact holds

/-- A run that failed satisfies the contract's error condition. -/
theorem error {x : CheckM α} (h : Contract x pre post err) {c : Checker} {e : SemanticError}
    (hc : pre c) (hx : x.run c = .error e) : err e := by
  have holds := h c hc
  rw [hx] at holds
  exact holds

theorem consequence {x : CheckM α} (h : Contract x pre post err) (hpre : ∀ c, pre' c → pre c)
    (hpost : ∀ a c, post a c → post' a c) (herr : ∀ e, err e → err' e) :
    Contract x pre' post' err' := by
  intro c hc
  have holds := h c (hpre c hc)
  cases hx : x.run c with
  | ok p =>
    obtain ⟨a, c'⟩ := p
    rw [hx] at holds
    exact hpost a c' holds
  | error e =>
    rw [hx] at holds
    exact herr e holds

theorem pure {a : α} (h : ∀ c, pre c → post a c) : Contract (Pure.pure a) pre post err :=
  fun c hc => h c hc

theorem throw {e : SemanticError} (h : err e) :
    Contract (MonadExcept.throw e : CheckM α) pre post err :=
  fun _ _ => h

theorem fail {cause : ErrorCause} {range : TextRange} (h : err ⟨cause, range⟩) :
    Contract (Checker.fail cause range : CheckM α) pre post err :=
  fun _ _ => h

theorem bind {x : CheckM α} {f : α → CheckM β} {mid : α → Checker → Prop}
    {post : β → Checker → Prop} (hx : Contract x pre mid err)
    (hf : ∀ a, Contract (f a) (mid a) post err) : Contract (x >>= f) pre post err := by
  intro c hc
  have holds := hx c hc
  rw [StateT.run_bind]
  cases hr : x.run c with
  | error e =>
    rw [hr] at holds
    exact holds
  | ok p =>
    obtain ⟨a, c'⟩ := p
    rw [hr] at holds
    exact hf a c' holds

theorem fail_bind {cause : ErrorCause} {range : TextRange} {f : α → CheckM β}
    {post : β → Checker → Prop} (h : err ⟨cause, range⟩) :
    Contract (Checker.fail cause range >>= f) pre post err :=
  fun _ _ => h

theorem get_bind {k : Checker → CheckM α} (h : ∀ c, pre c → Contract (k c) (· = c) post err) :
    Contract (MonadState.get >>= k) pre post err :=
  fun c hc => h c hc c rfl

theorem set {c' : Checker} {post : PUnit → Checker → Prop} (h : ∀ c, pre c → post .unit c') :
    Contract (MonadStateOf.set c' : CheckM PUnit) pre post err :=
  fun c hc => h c hc

theorem set_bind {c' : Checker} {f : PUnit → CheckM β} {post : β → Checker → Prop}
    (h : ∀ c, pre c → Contract (f .unit) (· = c') post err) :
    Contract (MonadStateOf.set c' >>= f) pre post err :=
  fun c hc => h c hc c' rfl

theorem modify {f : Checker → Checker} {post : PUnit → Checker → Prop}
    (h : ∀ c, pre c → post .unit (f c)) : Contract (modify f : CheckM PUnit) pre post err :=
  fun c hc => h c hc

end Contract

/-! ### Steps that only read the state -/

/-- A step that never changes the analyzer's state, whose value satisfies `R` in the state it
ran on, and that never reports a statement out of place. -/
def ReadOnly {α : Type} (x : CheckM α) (R : Checker → α → Prop) : Prop :=
  ∀ c, Contract x (· = c) (fun a c' => c' = c ∧ R c a) (fun e => ¬ e.Misplaced)

namespace ReadOnly

variable {α β : Type} {R : Checker → α → Prop} {S : Checker → β → Prop}

/-- Composing after a read-only step at a given state: the rest runs on the same state and
may use what the step's value satisfies there. -/
theorem bind_at {x : CheckM α} {f : α → CheckM β} (hx : ReadOnly x R) {c : Checker}
    {post : β → Prop}
    (hf : ∀ a, R c a → Contract (f a) (· = c) (fun b c' => c' = c ∧ post b)
      (fun e => ¬ e.Misplaced)) :
    Contract (x >>= f) (· = c) (fun b c' => c' = c ∧ post b) (fun e => ¬ e.Misplaced) :=
  Contract.bind (hx c) fun a c' ⟨same, ha⟩ => by
    subst same
    exact hf a ha c' rfl

theorem bind {x : CheckM α} {f : α → CheckM β} (hx : ReadOnly x R)
    (hf : ∀ c a, R c a → Contract (f a) (· = c) (fun b c' => c' = c ∧ S c b)
      (fun e => ¬ e.Misplaced)) :
    ReadOnly (x >>= f) S :=
  fun c => hx.bind_at fun a ha => hf c a ha

/-- A sequence of read-only steps whose values are unconstrained. -/
theorem bind_const {x : CheckM α} {f : α → CheckM β} (hx : ReadOnly x R)
    (hf : ∀ a, ReadOnly (f a) S) : ReadOnly (x >>= f) S :=
  hx.bind fun c a _ => hf a c

theorem pure_at {a : α} {c : Checker} {post : α → Prop} {err : SemanticError → Prop}
    (h : post a) : Contract (Pure.pure a) (· = c) (fun b c' => c' = c ∧ post b) err :=
  Contract.pure fun _ same => ⟨same, h⟩

theorem pure {a : α} (h : ∀ c, R c a) : ReadOnly (Pure.pure a) R :=
  fun c => pure_at (h c)

theorem fail {cause : ErrorCause} {range : TextRange}
    (h : ∀ keyword scope, cause ≠ .illegalPlacement keyword scope) :
    ReadOnly (Checker.fail cause range : CheckM α) R :=
  fun _ => Contract.fail fun ⟨keyword, scope, same⟩ => h keyword scope same

theorem get_bind {k : Checker → CheckM α} (h : ∀ c, ReadOnly (k c) R) :
    ReadOnly (MonadState.get >>= k) R :=
  fun c => Contract.get_bind fun c' same => by
    subst same
    exact h c' c'

/-- A read-only step on each element: the values keep what `view` sees of the elements, and
each satisfies `R`. -/
theorem mapM {γ δ : Type} {f : γ → CheckM α} {view : α → δ} {view' : γ → δ}
    (hf : ∀ a, ReadOnly (f a) fun c b => view b = view' a ∧ R c b) (as : List γ) :
    ReadOnly (as.mapM f) (fun c bs => bs.map view = as.map view' ∧ ∀ b ∈ bs, R c b) := by
  induction as with
  | nil => exact pure fun _ => ⟨rfl, fun _ h => nomatch h⟩
  | cons a as ih =>
    intro c
    rw [List.mapM_cons]
    refine (hf a).bind_at fun b hb => ?_
    refine ih.bind_at fun bs hbs => ?_
    refine pure_at ⟨by rw [List.map_cons, List.map_cons, hb.1, hbs.1], fun x hx => ?_⟩
    rcases List.mem_cons.1 hx with rfl | hx
    · exact hb.2
    · exact hbs.2 x hx

theorem forIn {γ : Type} {f : γ → PUnit → CheckM (ForInStep PUnit)}
    (hf : ∀ a u, ReadOnly (f a u) fun _ _ => True) (as : List γ) (u : PUnit) :
    ReadOnly (forIn as u f) fun _ _ => True := by
  induction as generalizing u with
  | nil => exact pure fun _ => trivial
  | cons a as ih =>
    rw [List.forIn_cons]
    refine (hf a u).bind fun c step _ => ?_
    cases step with
    | done u' => exact pure_at trivial
    | yield u' => exact ih u' c

end ReadOnly

/-! ### The read-only steps of the analyzer -/

theorem resolveIdent_readOnly (i : Ident) :
    ReadOnly (resolveIdent i) fun c i' => i'.erase = i.erase ∧ c.table.Resolves i' := by
  intro c
  unfold resolveIdent
  refine Contract.get_bind fun c' same => ?_
  subst same
  split
  · rename_i r found
    exact ReadOnly.pure_at ⟨rfl, r, found, rfl⟩
  · exact Contract.fail (ErrorCause.not_misplaced_ofSymbolError _ _ _)

theorem checkAssignable_readOnly (name : String) (found expected : Ty) (range : TextRange) :
    ReadOnly (checkAssignable name found expected range) fun _ _ => True := by
  unfold checkAssignable
  split
  · exact ReadOnly.pure fun _ => trivial
  · exact ReadOnly.fail fun _ _ => nofun

theorem expectType_readOnly (i : Ident) (expected : Ty) :
    ReadOnly (expectType i expected) fun c i' => i'.erase = i.erase ∧ c.table.Resolves i' := by
  intro c
  unfold expectType
  refine (resolveIdent_readOnly i).bind_at fun i' hi => ?_
  refine Contract.get_bind fun c' same => ?_
  subst same
  refine (checkAssignable_readOnly _ _ _ _).bind_at fun _ _ => ?_
  exact ReadOnly.pure_at hi

theorem expectVariable_readOnly (i : Ident) :
    ReadOnly (expectVariable i) fun c p => p.1.erase = i.erase ∧ c.table.Resolves p.1 := by
  intro c
  unfold expectVariable
  refine (resolveIdent_readOnly i).bind_at fun i' hi => ?_
  refine Contract.get_bind fun c' same => ?_
  subst same
  dsimp only
  split
  · split
    · exact Contract.fail nofun
    · exact ReadOnly.pure_at hi
  · exact Contract.fail nofun
  · exact Contract.fail nofun

theorem checkArguments_readOnly (name : String) (sig : Signature) (args : List Expr)
    (range : TextRange) : ReadOnly (checkArguments name sig args range) fun _ _ => True := by
  intro c
  unfold checkArguments
  split
  · exact Contract.fail_bind nofun
  · refine Contract.get_bind fun c' same => ?_
    subst same
    refine (ReadOnly.forIn (fun x _ => ?_) _ _).bind_at fun _ _ => ReadOnly.pure_at trivial
    exact (checkAssignable_readOnly _ _ _ _).bind_const fun _ => ReadOnly.pure fun _ => trivial

mutual

/-- Resolving an expression annotates its identifiers and nothing else, each with the number
its name resolves to. -/
theorem resolveExpr_readOnly :
    (e : Expr) → ReadOnly (resolveExpr e) fun c e' =>
      e'.erase = e.erase ∧ ∀ i ∈ e'.identifiers, c.table.Resolves i
  | .lit l => by
    simp only [resolveExpr]
    exact ReadOnly.pure fun _ => ⟨rfl, fun i hi => by simp [Expr.identifiers] at hi⟩
  | .ident i => by
    intro c
    simp only [resolveExpr]
    refine (resolveIdent_readOnly i).bind_at fun i' hi => ReadOnly.pure_at ⟨?_, ?_⟩
    · simp only [Expr.erase, hi.1]
    · intro j hj
      simp only [Expr.identifiers, List.mem_singleton] at hj
      exact hj ▸ hi.2
  | .binary op l r => by
    intro c
    simp only [resolveExpr]
    refine (resolveExpr_readOnly l).bind_at fun l' hl => ?_
    refine (resolveExpr_readOnly r).bind_at fun r' hr => ReadOnly.pure_at ⟨?_, ?_⟩
    · simp only [Expr.erase, hl.1, hr.1]
    · intro j hj
      rcases List.mem_append.1 hj with hj | hj
      · exact hl.2 j hj
      · exact hr.2 j hj
  | .unary op e => by
    intro c
    simp only [resolveExpr]
    refine (resolveExpr_readOnly e).bind_at fun e' he => ReadOnly.pure_at ⟨?_, he.2⟩
    simp only [Expr.erase, he.1]
  | .call n args => by
    intro c
    simp only [resolveExpr]
    refine (resolveExprs_readOnly args).bind_at fun args' hargs => ?_
    refine (resolveIdent_readOnly n).bind_at fun n' hn => ?_
    refine Contract.get_bind fun c' same => ?_
    subst same
    have sig : ∀ (s : Signature) , Contract
        (checkArguments n'.name s args' n'.range >>= fun _ => pure (Expr.call n' args'))
        (· = c') (fun e' c'' => c'' = c' ∧
          e'.erase = (Expr.call n args).erase ∧ ∀ i ∈ e'.identifiers, c'.table.Resolves i)
        (fun e => ¬ e.Misplaced) := by
      intro s
      refine (checkArguments_readOnly _ _ _ _).bind_at fun _ _ => ReadOnly.pure_at ⟨?_, ?_⟩
      · simp only [Expr.erase, hn.1, hargs.1]
      · intro j hj
        rcases List.mem_cons.1 hj with rfl | hj
        · exact hn.2
        · exact hargs.2 j hj
    split
    · simp only [pure_bind]
      exact sig _
    · simp only [pure_bind]
      exact sig _
    · exact Contract.fail_bind nofun
  | .array items => by
    intro c
    simp only [resolveExpr]
    refine (resolveExprs_readOnly items).bind_at fun items' hitems =>
      ReadOnly.pure_at ⟨?_, hitems.2⟩
    simp only [Expr.erase, hitems.1]

theorem resolveExprs_readOnly :
    (es : List Expr) → ReadOnly (resolveExprs es) fun c es' =>
      Expr.eraseList es' = Expr.eraseList es ∧
        ∀ i ∈ Expr.identifiersOfList es', c.table.Resolves i
  | [] => by
    simp only [resolveExprs]
    exact ReadOnly.pure fun _ => ⟨rfl, fun i hi => by simp [Expr.identifiersOfList] at hi⟩
  | e :: rest => by
    intro c
    simp only [resolveExprs]
    refine (resolveExpr_readOnly e).bind_at fun e' he => ?_
    refine (resolveExprs_readOnly rest).bind_at fun rest' hrest => ReadOnly.pure_at ⟨?_, ?_⟩
    · simp only [Expr.eraseList, he.1, hrest.1]
    · intro j hj
      rcases List.mem_append.1 hj with hj | hj
      · exact he.2 j hj
      · exact hrest.2 j hj

end

theorem typed_readOnly (e : Expr) :
    ReadOnly (typed e) fun c p => p.1.erase = e.erase ∧ ∀ i ∈ p.1.identifiers, c.table.Resolves i := by
  intro c
  unfold typed
  refine (resolveExpr_readOnly e).bind_at fun e' he => ?_
  refine Contract.get_bind fun c' same => ?_
  subst same
  exact ReadOnly.pure_at he

theorem expectQubits_readOnly (qs : List Qubit) :
    ReadOnly (expectQubits qs) fun c qs' =>
      qs'.map Qubit.erase = qs.map Qubit.erase ∧ ∀ q ∈ qs', c.table.ResolvesQubit q := by
  unfold expectQubits
  refine ReadOnly.mapM (fun q => ?_) qs
  intro c
  cases q with
  | named i =>
    refine (expectType_readOnly i .qubit).bind_at fun i' hi => ReadOnly.pure_at ⟨?_, hi.2⟩
    simp only [Qubit.erase, hi.1]
  | hardware n => exact ReadOnly.pure_at ⟨rfl, trivial⟩

/-- A step of a fold that keeps its accumulator or puts the current element in it. -/
theorem foldl_mem {β γ : Type} {f : Option (β × γ) → γ → Option (β × γ)}
    (hf : ∀ acc o p, f acc o = some p → acc = some p ∨ p.2 = o) :
    ∀ (l : List γ) (acc : Option (β × γ)) (p : β × γ), l.foldl f acc = some p →
      acc = some p ∨ p.2 ∈ l
  | [], acc, p, h => .inl h
  | o :: l, acc, p, h => by
    rcases foldl_mem hf l (f acc o) p h with same | mem
    · rcases hf acc o p same with kept | new
      · exact .inl kept
      · exact .inr (new ▸ List.mem_cons_self)
    · exact .inr (List.mem_cons_of_mem _ mem)

theorem bestOverload_mem {os : List Overload} {called : List (Option Nat)} {o : Overload}
    (h : bestOverload os called = some o) : o ∈ os := by
  unfold bestOverload at h
  obtain ⟨p, hp, rfl⟩ := Option.map_eq_some_iff.1 h
  refine (foldl_mem (fun acc o p step => ?_) os none p hp).resolve_left nofun
  split at step
  · injection step with step
    exact .inr (step ▸ rfl)
  · split at step
    · injection step with step
      exact .inr (step ▸ rfl)
    · exact .inl step
  · exact .inl step

theorem checkGate_readOnly (name : Ident) (args : List Expr) (qubits : List Qubit)
    (range : TextRange) :
    ReadOnly (checkGate name args qubits range) fun c k => ∃ name' args' qubits' os o,
      k = .gate name' args' qubits' ∧ k.erase = (StmtKind.gate name args qubits).erase ∧
      name'.name = name.name ∧ c.overloadsOf name.name = some os ∧ o ∈ os ∧
      name'.symbol = some o.symbol ∧
      (∀ i ∈ Expr.identifiersOfList args', c.table.Resolves i) ∧
      ∀ q ∈ qubits', c.table.ResolvesQubit q := by
  intro c
  unfold checkGate
  refine (resolveExprs_readOnly args).bind_at fun args' hargs => ?_
  refine (expectQubits_readOnly qubits).bind_at fun qubits' hqubits => ?_
  refine Contract.get_bind fun c' same => ?_
  subst same
  split
  · rename_i os found
    dsimp only
    split
    · exact Contract.fail_bind nofun
    · split
      · exact Contract.fail nofun
      · rename_i o chosen
        refine (checkArguments_readOnly _ _ _ _).bind_at fun _ _ => ReadOnly.pure_at ?_
        have offered := List.mem_filter.1 (bestOverload_mem chosen)
        refine ⟨_, args', qubits', os, o, rfl, ?_, rfl, found, offered.1, rfl, hargs.2, hqubits.2⟩
        simp only [StmtKind.erase, Ident.erase, hargs.1, hqubits.1]
  · exact Contract.fail nofun

/-! ### Declaring names -/

@[simp] theorem record_table (c : Checker) (name : String) (o : Overload) :
    (c.record name o).table = c.table := by
  unfold record
  split <;> rfl

theorem declareIdent_contract (i : Ident) (kind : SymbolKind) (c : Checker) :
    Contract (declareIdent i kind) (· = c)
      (fun i' c' => ∃ id t, c.table.declare i.name kind = .ok (id, t) ∧
        i' = { i with symbol := some id } ∧ c' = { c with table := t })
      (fun e => ¬ e.Misplaced) := by
  unfold declareIdent
  refine Contract.get_bind fun c' same => ?_
  subst same
  split
  · rename_i id t declared
    exact Contract.set_bind fun _ _ => Contract.pure fun _ same => ⟨id, t, declared, rfl, same⟩
  · exact Contract.fail (ErrorCause.not_misplaced_ofSymbolError _ _ _)

/-! ### Steps that keep the shape of the scope table -/

/-- A steady step keeps the kinds of the open scopes and the number of open `cal` blocks, and
never reports a statement out of place. -/
def Steady {α : Type} (x : CheckM α) : Prop :=
  ∀ σ, Contract x (fun c => c.table.shape = σ) (fun _ c => c.table.shape = σ)
    (fun e => ¬ e.Misplaced)

namespace Steady

variable {α β : Type}

theorem of_readOnly {x : CheckM α} {R : Checker → α → Prop} (h : ReadOnly x R) : Steady x := by
  intro σ c hc
  have kept : Contract x (· = c) (fun _ c' => c'.table.shape = σ) (fun e => ¬ e.Misplaced) :=
    (h c).consequence (fun _ h => h) (fun _ c' hc' => hc'.1 ▸ hc) (fun _ h => h)
  exact kept c rfl

theorem pure {a : α} : Steady (Pure.pure a : CheckM α) :=
  fun _ => Contract.pure fun _ h => h

theorem bind {x : CheckM α} {f : α → CheckM β} (hx : Steady x) (hf : ∀ a, Steady (f a)) :
    Steady (x >>= f) :=
  fun σ => Contract.bind (hx σ) fun a => hf a σ

theorem mapM {γ : Type} {f : γ → CheckM α} (hf : ∀ a, Steady (f a)) (as : List γ) :
    Steady (as.mapM f) := by
  induction as with
  | nil => exact pure
  | cons a as ih =>
    rw [List.mapM_cons]
    exact (hf a).bind fun _ => ih.bind fun _ => pure

end Steady

theorem declareIdent_steady (i : Ident) (kind : SymbolKind) : Steady (declareIdent i kind) := by
  intro σ c hc
  have declared := declareIdent_contract i kind c
  have kept : Contract (declareIdent i kind) (· = c) (fun _ c' => c'.table.shape = σ)
      (fun e => ¬ e.Misplaced) :=
    declared.consequence (fun _ h => h)
      (fun _ c' ⟨_, _, hd, _, same⟩ => by rw [same, SymbolTable.shape_declare hd]; exact hc)
      (fun _ h => h)
  exact kept c rfl

theorem declareParams_steady (ps : List Param) : Steady (declareParams ps) :=
  Steady.mapM (fun _ => (declareIdent_steady _ _).bind fun _ => Steady.pure) ps

theorem declareQubits_steady (qs : List Qubit) : Steady (declareQubits qs) := by
  refine Steady.mapM (fun q => ?_) qs
  cases q with
  | named i => exact (declareIdent_steady _ _).bind fun _ => Steady.pure
  | hardware n => exact Steady.pure

/-- A scope opened around a step that keeps the shape inside it is closed again: the shape
outside is kept, and what the step gives is passed on. -/
theorem withScope_shape {α : Type} {kind : ScopeKind} (notGlobal : kind ≠ .global)
    {range : TextRange} {step : CheckM α} {σ : List ScopeKind × Nat} {post : α → Prop}
    {err : SemanticError → Prop}
    (hstep : Contract step (fun c => c.table.shape = (kind :: σ.1, σ.2))
      (fun a c => c.table.shape = (kind :: σ.1, σ.2) ∧ post a) err) :
    Contract (withScope kind range step) (fun c => c.table.shape = σ)
      (fun a c => c.table.shape = σ ∧ post a) err := by
  unfold withScope
  refine Contract.get_bind fun c hc => ?_
  have entered : c.table.enter kind = some { c.table with inner := ⟨kind, []⟩ :: c.table.inner } :=
    SymbolTable.enter_eq_some_iff.2 ⟨notGlobal, rfl⟩
  have outer : σ.1 ≠ [] := by
    rw [← hc]
    simp [SymbolTable.shape, SymbolTable.scopes]
  dsimp only
  rw [entered]
  refine Contract.set_bind fun _ _ => ?_
  refine Contract.bind (hstep.consequence (fun c' same => ?_) (fun _ _ h => h) (fun _ h => h))
    fun a => ?_
  · rw [same, ← hc]
    rfl
  refine Contract.get_bind fun c' inside => ?_
  obtain ⟨inside, ha⟩ := inside
  split
  · rename_i k t left
    refine Contract.set_bind fun _ _ => Contract.pure fun _ same => ?_
    have := SymbolTable.shape_leave left
    rw [inside] at this
    simp only [Prod.mk.injEq, List.cons.injEq] at this
    rw [same]
    exact ⟨Prod.ext this.1.2.symm this.2.symm, ha⟩
  · rename_i e left
    obtain ⟨-, none⟩ := SymbolTable.leave_eq_error_iff.1 left
    have kinds := congrArg Prod.fst inside
    simp only [SymbolTable.shape, SymbolTable.scopes, none, List.nil_append, List.map_cons,
      List.map_nil, List.cons.injEq] at kinds
    exact absurd kinds.2.symm outer

/-! ### Statements without blocks -/

/-- A property `Q x R` of analysis steps `x` whose values satisfy `R`, which every read-only step
and every declaration has, and which giving a value and sequencing keep. The analysis of a
statement without blocks is made of such steps only (`checkKind_leaf`). -/
structure LeafSteps (Q : {α : Type} → CheckM α → (α → Prop) → Prop) : Prop where
  readOnly {α : Type} {x : CheckM α} {R : Checker → α → Prop} : ReadOnly x R → Q x fun _ => True
  declare (i : Ident) (kind : SymbolKind) : Q (declareIdent i kind) fun _ => True
  pure {α : Type} {a : α} {R : α → Prop} : R a → Q (Pure.pure a) R
  bind {α β : Type} {x : CheckM α} {f : α → CheckM β} {R : α → Prop} {S : β → Prop} :
    Q x R → (∀ a, R a → Q (f a) S) → Q (x >>= f) S

namespace LeafSteps

variable {Q : {α : Type} → CheckM α → (α → Prop) → Prop}

theorem mapM (hQ : LeafSteps Q) {α β : Type} {f : α → CheckM β} (hf : ∀ a, Q (f a) fun _ => True)
    (as : List α) : Q (as.mapM f) fun _ => True := by
  induction as with
  | nil => exact hQ.pure trivial
  | cons a as ih =>
    rw [List.mapM_cons]
    exact hQ.bind (hf a) fun _ _ => hQ.bind ih fun _ _ => hQ.pure trivial

theorem read_pure (hQ : LeafSteps Q) {α β : Type} {x : CheckM α} {R : Checker → α → Prop}
    (hx : ReadOnly x R) {g : α → β} {S : β → Prop} (hg : ∀ a, S (g a)) :
    Q (x >>= fun a => Pure.pure (g a)) S :=
  hQ.bind (hQ.readOnly hx) fun a _ => hQ.pure (hg a)

/-- A declaration, then a value built from the identifier it gave. -/
theorem declare_pure (hQ : LeafSteps Q) {β : Type} (i : Ident) (kind : SymbolKind)
    {g : Ident → β} {S : β → Prop} (hg : ∀ i', S (g i')) :
    Q (declareIdent i kind >>= fun i' => Pure.pure (g i')) S :=
  hQ.bind (hQ.declare i kind) fun i' _ => hQ.pure (hg i')

end LeafSteps

/-- The analysis of a statement without blocks, other than a gate call, reads the state and
declares names, and gives a statement of its own kind: without blocks, and no gate call. -/
theorem checkKind_leaf {Q : {α : Type} → CheckM α → (α → Prop) → Prop} (hQ : LeafSteps Q)
    (range : TextRange) {k : StmtKind} (leaf : k.blocks = [])
    (notGate : ∀ n args qs, k ≠ .gate n args qs) :
    Q (checkKind range k) fun k' => k'.blocks = [] ∧ ∀ n args qs, k' ≠ .gate n args qs := by
  cases k with
  | subroutine | defcal | cal | forLoop | whileLoop => simp [StmtKind.blocks] at leaf
  | branch c t e => cases e <;> simp [StmtKind.blocks] at leaf
  | gate n args qs => exact absurd rfl (notGate n args qs)
  | grammar g => exact hQ.pure ⟨rfl, nofun⟩
  | port n | input n _ | output n _ =>
    simp only [checkKind]
    exact hQ.declare_pure _ _ fun _ => ⟨rfl, nofun⟩
  | frame n p f ph =>
    simp only [checkKind]
    refine hQ.bind (hQ.readOnly (expectType_readOnly _ _)) fun _ _ => ?_
    refine hQ.bind (hQ.readOnly (resolveExpr_readOnly _)) fun _ _ => ?_
    refine hQ.bind (hQ.readOnly (resolveExpr_readOnly _)) fun _ _ => ?_
    exact hQ.declare_pure _ _ fun _ => ⟨rfl, nofun⟩
  | waveform n v ti =>
    simp only [checkKind]
    refine hQ.bind (hQ.readOnly (typed_readOnly _)) fun _ _ => ?_
    refine hQ.bind (hQ.readOnly (checkAssignable_readOnly _ _ _ _)) fun _ _ => ?_
    exact hQ.declare_pure _ _ fun _ => ⟨rfl, nofun⟩
  | declare n ty init =>
    simp only [checkKind]
    cases init with
    | none =>
      exact hQ.bind (hQ.pure (R := fun _ => True) trivial) fun _ _ =>
        hQ.declare_pure _ _ fun _ => ⟨rfl, nofun⟩
    | some e =>
      refine hQ.bind (hQ.readOnly (typed_readOnly _)) fun _ _ => ?_
      refine hQ.bind (hQ.readOnly (checkAssignable_readOnly _ _ _ _)) fun _ _ => ?_
      exact hQ.bind (hQ.pure (R := fun _ => True) trivial) fun _ _ =>
        hQ.declare_pure _ _ fun _ => ⟨rfl, nofun⟩
  | expr e =>
    simp only [checkKind]
    exact hQ.read_pure (resolveExpr_readOnly _) fun _ => ⟨rfl, nofun⟩
  | assign target op v =>
    simp only [checkKind]
    refine hQ.bind (hQ.readOnly (expectVariable_readOnly _)) fun _ _ => ?_
    refine hQ.bind (hQ.readOnly (typed_readOnly _)) fun _ _ => ?_
    exact hQ.read_pure (checkAssignable_readOnly _ _ _ _) fun _ => ⟨rfl, nofun⟩
  | ret v =>
    simp only [checkKind]
    cases v with
    | none => exact hQ.pure ⟨rfl, nofun⟩
    | some e => exact hQ.read_pure (resolveExpr_readOnly _) fun _ => ⟨rfl, nofun⟩
  | delay d frames =>
    simp only [checkKind]
    refine hQ.bind (hQ.readOnly (typed_readOnly _)) fun _ _ => ?_
    refine hQ.bind (hQ.readOnly (checkAssignable_readOnly _ _ _ _)) fun _ _ => ?_
    exact hQ.bind (hQ.mapM (fun _ => hQ.readOnly (expectType_readOnly _ _)) _) fun _ _ =>
      hQ.pure ⟨rfl, nofun⟩
  | play f w | capture f w =>
    simp only [checkKind]
    refine hQ.bind (hQ.readOnly (expectType_readOnly _ _)) fun _ _ => ?_
    refine hQ.bind (hQ.readOnly (typed_readOnly _)) fun _ _ => ?_
    exact hQ.read_pure (checkAssignable_readOnly _ _ _ _) fun _ => ⟨rfl, nofun⟩
  | barrier frames sync =>
    simp only [checkKind]
    cases frames with
    | none => exact hQ.pure ⟨rfl, nofun⟩
    | some fs =>
      exact hQ.bind (hQ.mapM (fun _ => hQ.readOnly (expectType_readOnly _ _)) _) fun _ _ =>
        hQ.pure ⟨rfl, nofun⟩
  | update op f v =>
    simp only [checkKind]
    refine hQ.bind (hQ.readOnly (expectType_readOnly _ _)) fun _ _ => ?_
    exact hQ.read_pure (resolveExpr_readOnly _) fun _ => ⟨rfl, nofun⟩

/-- A step that keeps the part `f` of the state, gives a value satisfying `R`, and never reports
a statement out of place. -/
def Keeps {σ α : Type} (f : Checker → σ) (x : CheckM α) (R : α → Prop) : Prop :=
  ∀ v, Contract x (fun c => f c = v) (fun a c => f c = v ∧ R a) (fun e => ¬ e.Misplaced)

/-- What declaring a name keeps of the state, the statements without blocks keep. -/
theorem Keeps.leafSteps {σ : Type} {f : Checker → σ}
    (declared : ∀ (c : Checker) name kind id t, c.table.declare name kind = .ok (id, t) →
      f { c with table := t } = f c) :
    LeafSteps (Keeps f) where
  readOnly hx v c hc := ((hx c).consequence (fun _ h => h)
    (fun _ _ h => h.1 ▸ ⟨hc, trivial⟩) (fun _ h => h)) c rfl
  declare i kind v c hc := by
    refine ((declareIdent_contract i kind c).consequence (fun _ h => h) (fun _ c' h => ?_)
      (fun _ h => h)) c rfl
    obtain ⟨_, _, hd, _, same⟩ := h
    exact same ▸ ⟨(declared c _ _ _ _ hd).trans hc, trivial⟩
  pure ha _ := Contract.pure fun _ hc => ⟨hc, ha⟩
  bind hx hf v := Contract.bind (hx v) fun a c₁ h => hf a h.2 v c₁ h.1

end Checker

/-! ### The analyzer's starting state -/

/-- Binds generators in the global scope one after another, stopping at the first that cannot
be bound. -/
def SymbolTable.declareGenerators (t : SymbolTable) :
    List Generator → Except SemanticError SymbolTable
  | [] => .ok t
  | g :: gs =>
    match t.declare g.name (.generator g.signature) with
    | .ok (_, t') => t'.declareGenerators gs
    | .error e => .error ⟨.ofSymbolError g.name e, {}⟩

theorem Checker.initial_eq (registry : Registry) :
    Checker.initial registry =
      (SymbolTable.initial.declareGenerators registry.generators).map fun t => ⟨t, [], 0⟩ := by
  unfold Checker.initial
  generalize SymbolTable.initial = t
  induction registry.generators generalizing t with
  | nil => rfl
  | cons g gs ih =>
    simp only [List.forIn_cons, SymbolTable.declareGenerators]
    cases t.declare g.name (.generator g.signature) with
    | ok r =>
      obtain ⟨id, t'⟩ := r
      exact ih t'
    | error e => rfl

namespace SymbolTable

theorem declareGenerators_shape :
    ∀ {t t' : SymbolTable} {gs : List Generator}, t.declareGenerators gs = .ok t' →
      t'.shape = t.shape
  | _, _, [], h => by cases h; rfl
  | t, t', g :: gs, h => by
    simp only [declareGenerators] at h
    split at h
    · rename_i id t'' declared
      exact (declareGenerators_shape h).trans (shape_declare declared)
    · cases h

theorem declareGenerators_not_misplaced :
    ∀ {t : SymbolTable} {gs : List Generator} {e : SemanticError},
      t.declareGenerators gs = .error e → ¬ e.Misplaced
  | _, [], _, h => by cases h
  | t, g :: gs, e, h => by
    simp only [declareGenerators] at h
    split at h
    · exact declareGenerators_not_misplaced h
    · cases h
      exact ErrorCause.not_misplaced_ofSymbolError _ _ _

end SymbolTable

end PulseCompiler
