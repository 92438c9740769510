import PulseCompiler.Proofs.Analysis.Resolution
import PulseCompiler.Proofs.Analysis.Placement
import PulseCompiler.Proofs.Timing.Scope
import Mathlib.Data.List.Flatten
set_option autoImplicit false

/-!
# Numbering

Analysis numbers the statements of a program in pre-order, from 0, and gives each declaration
a symbol of its own.

The statement counter is moved by `takeId` alone. Every other step leaves it where it was
(`Checker.KeepsCount`), so the analysis of a statement takes the next number for itself and
then numbers its blocks in order (`Checker.Counts`). Declarations are numbered by the lexical
rule: each name bound is the next declaration, so the binders of a block that follows the rule
carry consecutive symbols (`Lexical.Binds`).

Main statements: an analyzed program's statements are numbered `0, 1, …` in pre-order
(`Program.analyze_ids`), and its declarations are distinct (`Program.analyze_declarations`).
-/

namespace PulseCompiler

namespace Checker

/-! ### The statement counter -/

/-- A step that leaves the statement counter where it found it. -/
def KeepsCount {α : Type} (x : CheckM α) : Prop :=
  ∀ n, Contract x (·.nextId = n) (fun _ c => c.nextId = n) (fun _ => True)

namespace KeepsCount

variable {α β : Type}

theorem of_readOnly {x : CheckM α} {R : Checker → α → Prop} (h : ReadOnly x R) :
    KeepsCount x := by
  intro n c hc
  have kept : Contract x (· = c) (fun _ c' => c'.nextId = n) (fun _ => True) :=
    (h c).consequence (fun _ h => h) (fun _ c' hc' => hc'.1 ▸ hc) (fun _ _ => trivial)
  exact kept c rfl

theorem pure {a : α} : KeepsCount (Pure.pure a : CheckM α) :=
  fun _ => Contract.pure fun _ h => h

theorem bind {x : CheckM α} {f : α → CheckM β} (hx : KeepsCount x)
    (hf : ∀ a, KeepsCount (f a)) : KeepsCount (x >>= f) :=
  fun n => Contract.bind (hx n) fun a => hf a n

theorem mapM {γ : Type} {f : γ → CheckM α} (hf : ∀ a, KeepsCount (f a)) (as : List γ) :
    KeepsCount (as.mapM f) := by
  induction as with
  | nil => exact pure
  | cons a as ih =>
    rw [List.mapM_cons]
    exact (hf a).bind fun _ => ih.bind fun _ => pure

end KeepsCount

theorem declareIdent_keepsCount (i : Ident) (kind : SymbolKind) :
    KeepsCount (declareIdent i kind) := by
  intro n c hc
  have kept : Contract (declareIdent i kind) (· = c) (fun _ c' => c'.nextId = n)
      (fun _ => True) :=
    (declareIdent_contract i kind c).consequence (fun _ h => h)
      (fun _ c' ⟨_, _, _, _, same⟩ => same ▸ hc) (fun _ _ => trivial)
  exact kept c rfl

theorem declareParams_keepsCount (ps : List Param) : KeepsCount (declareParams ps) :=
  KeepsCount.mapM (fun _ => (declareIdent_keepsCount _ _).bind fun _ => KeepsCount.pure) ps

theorem declareQubits_keepsCount (qs : List Qubit) : KeepsCount (declareQubits qs) := by
  refine KeepsCount.mapM (fun q => ?_) qs
  cases q with
  | named i => exact (declareIdent_keepsCount _ _).bind fun _ => KeepsCount.pure
  | hardware n => exact KeepsCount.pure

/-- A step that numbers the statements `walk a` of the value `a` it gives, in order from the
counter it starts at, and leaves the counter after them. -/
def Counts {α : Type} (x : CheckM α) (walk : α → List Stmt) : Prop :=
  ∀ n, Contract x (·.nextId = n)
    (fun a c => (walk a).map Stmt.id = List.range' n (walk a).length ∧
      c.nextId = n + (walk a).length)
    (fun _ => True)

namespace Counts

variable {α β γ : Type}

theorem pure_nil {a : α} {walk : α → List Stmt} (none : walk a = []) :
    Counts (Pure.pure a) walk := by
  intro n
  refine Contract.pure fun c hc => ?_
  rw [none]
  exact ⟨rfl, hc⟩

/-- A step that only reads the state, and gives a value with no statements. -/
theorem of_readOnly {x : CheckM α} {R : Checker → α → Prop} {walk : α → List Stmt}
    (hx : ReadOnly x R) (none : ∀ c a, R c a → walk a = []) : Counts x walk := by
  intro n c hc
  have counted : Contract x (· = c) (fun a c' => (walk a).map Stmt.id =
      List.range' n (walk a).length ∧ c'.nextId = n + (walk a).length) (fun _ => True) :=
    (hx c).consequence (fun _ h => h) (fun a c' ⟨same, ha⟩ => by
      rw [none c a ha, same]
      exact ⟨rfl, hc⟩) (fun _ _ => trivial)
  exact counted c rfl

theorem at_state {x : CheckM α} {walk : α → List Stmt} (h : Counts x walk) {c : Checker}
    {n : Nat} (hc : c.nextId = n) :
    Contract x (· = c) (fun a c' => (walk a).map Stmt.id = List.range' n (walk a).length ∧
      c'.nextId = n + (walk a).length) (fun _ => True) :=
  (h n).consequence (fun _ same => same ▸ hc) (fun _ _ h => h) (fun _ h => h)

theorem after {x : CheckM α} {f : α → CheckM β} {walk : β → List Stmt} (hx : KeepsCount x)
    (hf : ∀ a, Counts (f a) walk) : Counts (x >>= f) walk :=
  fun n => Contract.bind (hx n) fun a => hf a n

/-- Passing on what a step numbered, under another value with the same statements. -/
theorem map {x : CheckM α} {walk : α → List Stmt} {g : α → β} {walk' : β → List Stmt}
    (hx : Counts x walk) (hg : ∀ a, walk' (g a) = walk a) :
    Counts (x >>= fun a => Pure.pure (g a)) walk' :=
  fun n => Contract.bind (hx n) fun a => Contract.pure fun c hc => by
    rw [hg a]
    exact hc

/-- Two steps in a row number their statements one after the other. -/
theorem append {x : CheckM α} {y : CheckM β} {wx : α → List Stmt} {wy : β → List Stmt}
    {g : α → β → γ} {walk : γ → List Stmt} (hx : Counts x wx) (hy : Counts y wy)
    (hg : ∀ a b, walk (g a b) = wx a ++ wy b) :
    Counts (x >>= fun a => y >>= fun b => Pure.pure (g a b)) walk := by
  intro n
  refine Contract.bind (hx n) fun a c ⟨first, counter⟩ => ?_
  have second : Contract y (· = c) _ _ :=
    (hy (n + (wx a).length)).consequence (fun c' same => same ▸ counter) (fun _ _ h => h)
      (fun _ h => h)
  refine Contract.bind second (fun b => Contract.pure fun c' ⟨numbered, counter'⟩ => ?_) c rfl
  rw [hg, List.length_append, List.map_append, first, numbered, List.range'_append_1]
  exact ⟨rfl, by rw [counter', Nat.add_assoc]⟩

/-- A step that gives a value, then a value with the same statements. -/
theorem bind_pure {x : CheckM α} {f : α → CheckM β} {walk : α → List Stmt}
    {walk' : β → List Stmt} (hx : Counts x walk)
    (hf : ∀ a, ∃ b, f a = Pure.pure b ∧ walk' b = walk a) : Counts (x >>= f) walk' := by
  intro n
  refine Contract.bind (hx n) fun a => ?_
  obtain ⟨b, hb, same⟩ := hf a
  rw [hb]
  refine Contract.pure fun c hc => ?_
  rw [same]
  exact hc

end Counts

theorem takeId_takes (n : Nat) :
    Contract takeId (·.nextId = n) (fun i c => i = n ∧ c.nextId = n + 1) (fun _ => True) := by
  unfold takeId
  exact Contract.get_bind fun c hc => Contract.set_bind fun _ _ => Contract.pure fun _ same =>
    ⟨hc, by rw [same, hc]⟩

/-- A scope opened and closed around a step only changes the table. -/
theorem withScope_counts {α : Type} {kind : ScopeKind} {range : TextRange} {step : CheckM α}
    {walk : α → List Stmt} (h : Counts step walk) : Counts (withScope kind range step) walk := by
  intro n
  unfold withScope
  refine Contract.get_bind fun c hc => ?_
  dsimp only
  split
  on_goal 1 => refine Contract.set_bind fun _ _ => ?_
  all_goals
    refine Contract.bind ((h n).consequence (fun c' same => by subst same; exact hc)
      (fun _ _ h => h) (fun _ h => h)) fun a => ?_
    refine Contract.get_bind fun c' ⟨numbered, counter⟩ => ?_
    split
    · exact Contract.set_bind fun _ _ => Contract.pure fun _ same =>
        same ▸ ⟨numbered, counter⟩
    · exact Contract.fail_bind trivial

theorem checkKind_counts_of_leaf (range : TextRange) {k : StmtKind}
    (leaf : k.opensBlock = false) : Counts (checkKind range k) StmtKind.walkBlocks := by
  by_cases call : ∃ n args qs, k = .gate n args qs
  · obtain ⟨n, args, qs, rfl⟩ := call
    simp only [checkKind]
    refine Counts.of_readOnly (checkGate_readOnly _ _ _ _) fun _ _ checked => ?_
    obtain ⟨_, _, _, _, _, shape, _⟩ := checked
    exact shape ▸ rfl
  · intro n
    have steps := Keeps.leafSteps (f := Checker.nextId) fun _ _ _ _ _ _ => rfl
    have kept := checkKind_leaf steps range (StmtKind.blocks_eq_nil_of_opensBlock leaf)
      (fun n args qs same => call ⟨n, args, qs, same⟩) n
    refine kept.consequence (fun _ h => h) (fun k' _ h => ?_) (fun _ _ => trivial)
    rw [StmtKind.walkBlocks_eq_flatMap, h.2.1, List.flatMap_nil]
    exact ⟨rfl, h.1⟩

@[simp] theorem record_nextId (c : Checker) (name : String) (o : Overload) :
    (c.record name o).nextId = c.nextId := by
  unfold record
  split <;> rfl

mutual

/-- A statement takes the next number, and the statements nested in it the numbers after it,
in pre-order. -/
theorem checkStmt_counts : (s : Stmt) → Counts (checkStmt s) Stmt.walk
  | .mk id range dur k => by
    intro n
    simp only [checkStmt]
    refine Contract.bind (takeId_takes n) fun i => Contract.get_bind fun c ⟨taken, hc⟩ => ?_
    split
    · exact Contract.fail_bind trivial
    · refine Contract.bind ((checkKind_counts range k (n + 1)).consequence
        (fun c' same => same ▸ hc) (fun _ _ h => h) (fun _ h => h)) fun k' => ?_
      refine Contract.pure fun c' ⟨numbered, counter⟩ => ?_
      rw [Stmt.walk_eq]
      simp only [Stmt.kind, Stmt.id, List.map_cons, List.length_cons, numbered, taken, counter,
        List.range'_succ]
      exact ⟨trivial, by omega⟩

/-- The statements nested in a statement are numbered block after block. -/
theorem checkKind_counts (range : TextRange) :
    (k : StmtKind) → Counts (checkKind range k) StmtKind.walkBlocks
  | .subroutine n ps ret body => by
    simp only [checkKind]
    refine Counts.after (declareIdent_keepsCount _ _) fun _ => ?_
    have opened : Counts (withScope .subroutine range (declareParams ps >>= fun ps' =>
        checkBlock body >>= fun body' => pure (ps', body'))) fun a => Stmt.walkList a.2 :=
      withScope_counts (Counts.after (declareParams_keepsCount _) fun _ =>
        (checkBlock_counts body).map fun _ => rfl)
    exact opened.bind_pure fun _ => ⟨_, rfl, rfl⟩
  | .defcal n ps qs ret body => by
    intro m
    simp only [checkKind]
    refine Contract.get_bind fun c hc => ?_
    split
    · simp only [pure_bind]
      refine Contract.set_bind fun _ _ => ?_
      have opened : Counts (withScope .defcal range (declareParams ps >>= fun ps' =>
          declareQubits qs >>= fun qs' => checkBlock body >>= fun body' =>
            pure (ps', qs', body'))) fun a => Stmt.walkList a.2.2 :=
        withScope_counts (Counts.after (declareParams_keepsCount _) fun _ =>
          Counts.after (declareQubits_keepsCount _) fun _ =>
            (checkBlock_counts body).map fun _ => rfl)
      refine Counts.at_state ?_ (by rw [record_nextId]; exact hc)
      exact opened.bind_pure fun _ => ⟨_, rfl, rfl⟩
    · exact Contract.fail_bind trivial
  | .cal body => by
    intro m
    simp only [checkKind]
    have entered : Contract (modify fun c => { c with table := c.table.enterCalibration })
        (·.nextId = m) (fun _ c => c.nextId = m) (fun _ => True) :=
      Contract.modify fun _ hc => hc
    refine Contract.bind entered fun _ => Contract.bind (checkBlock_counts body m) fun body' => ?_
    refine Contract.get_bind fun c ⟨numbered, counter⟩ => ?_
    split
    · exact Contract.set_bind fun _ _ => Contract.pure fun _ same =>
        same ▸ ⟨numbered, counter⟩
    · exact Contract.fail_bind trivial
  | .forLoop var ty it body => by
    have opened : Counts (withScope .local range (declareIdent var (.classical ty) >>= fun var' =>
        checkBlock body >>= fun body' => pure (var', body'))) fun a => Stmt.walkList a.2 :=
      withScope_counts (Counts.after (declareIdent_keepsCount _ _) fun _ =>
        (checkBlock_counts body).map fun _ => rfl)
    simp only [checkKind]
    cases it with
    | range start step stop =>
      refine Counts.after (KeepsCount.of_readOnly (resolveExpr_readOnly _)) fun _ => ?_
      cases step with
      | some e =>
        refine Counts.after (KeepsCount.of_readOnly (resolveExpr_readOnly _)) fun _ => ?_
        refine Counts.after KeepsCount.pure fun _ => ?_
        refine Counts.after (KeepsCount.of_readOnly (resolveExpr_readOnly _)) fun _ => ?_
        exact Counts.after KeepsCount.pure fun _ => opened.map fun _ => rfl
      | none =>
        refine Counts.after KeepsCount.pure fun _ => ?_
        refine Counts.after (KeepsCount.of_readOnly (resolveExpr_readOnly _)) fun _ => ?_
        exact Counts.after KeepsCount.pure fun _ => opened.map fun _ => rfl
    | set values =>
      refine Counts.after (KeepsCount.of_readOnly (resolveExprs_readOnly _)) fun _ => ?_
      exact Counts.after KeepsCount.pure fun _ => opened.map fun _ => rfl
  | .whileLoop c body => by
    simp only [checkKind]
    refine Counts.after (KeepsCount.of_readOnly (resolveExpr_readOnly _)) fun _ => ?_
    exact (withScope_counts (checkBlock_counts body)).map fun _ => rfl
  | .branch c t (some e) => by
    simp only [checkKind, pure_bind]
    refine Counts.after (KeepsCount.of_readOnly (resolveExpr_readOnly _)) fun _ => ?_
    exact Counts.append (withScope_counts (checkBlock_counts t))
      (withScope_counts (checkBlock_counts e)) fun _ _ => rfl
  | .branch c t none => by
    simp only [checkKind, pure_bind]
    refine Counts.after (KeepsCount.of_readOnly (resolveExpr_readOnly _)) fun _ => ?_
    exact (withScope_counts (checkBlock_counts t)).map fun _ => List.append_nil _
  | .grammar _ | .port _ | .frame .. | .waveform .. | .declare .. | .input .. | .output ..
  | .gate .. | .expr _ | .assign .. | .ret _ | .delay .. | .play .. | .capture .. | .barrier ..
  | .update .. => checkKind_counts_of_leaf range rfl

/-- The statements of a block are numbered in pre-order, one statement after the other. -/
theorem checkBlock_counts : (b : List Stmt) → Counts (checkBlock b) Stmt.walkList
  | [] => by
    simp only [checkBlock]
    exact Counts.pure_nil rfl
  | s :: rest => by
    simp only [checkBlock]
    exact Counts.append (checkStmt_counts s) (checkBlock_counts rest) fun _ _ => rfl

end

end Checker

/-! ### Declarations -/

namespace Lexical

/-- From `env` to `env'`, the identifiers `is` were bound in order, one to each declaration
made: they carry the symbols `env.next, env.next + 1, …`. -/
structure Binds (env env' : Lexical) (is : List Ident) : Prop where
  symbols : is.map Ident.symbol = (List.range' env.next is.length).map some
  next : env'.next = env.next + is.length

namespace Binds

variable {env env' env₁ env₂ env₃ : Lexical} {is js : List Ident} {i n : Ident}

theorem refl (env : Lexical) : Binds env env [] := ⟨rfl, rfl⟩

theorem trans (h₁ : Binds env₁ env₂ is) (h₂ : Binds env₂ env₃ js) :
    Binds env₁ env₃ (is ++ js) where
  symbols := by
    rw [List.map_append, h₁.symbols, h₂.symbols, h₁.next, List.length_append,
      ← List.map_append, List.range'_append_1]
  next := by rw [h₂.next, h₁.next, List.length_append, Nat.add_assoc]

theorem leave (h : Binds env env' is) : Binds env env'.leave is := ⟨h.symbols, h.next⟩

theorem of_enter (h : Binds env.enter env' is) : Binds env env' is := ⟨h.symbols, h.next⟩

theorem declare (h : env.declare i = some env') : Binds env env' [i] := by
  obtain ⟨numbered, rfl⟩ := declare_eq_some_iff.1 h
  exact ⟨by simp [numbered], rfl⟩

theorem declareAll : ∀ {env env' : Lexical} {is : List Ident}, env.declareAll is = some env' →
    Binds env env' is
  | _, _, [], h => by
    cases h
    exact refl _
  | _, _, i :: is, h => by
    rw [declareAll_cons, Option.bind_eq_some_iff] at h
    obtain ⟨named, hnamed, rest⟩ := h
    exact (declare hnamed).trans (declareAll rest)

theorem declareDefcal {arity : Nat} {qs : List Qubit}
    (h : env.declareDefcal n arity qs = some env') : Binds env env' [n] := by
  obtain ⟨numbered, rfl⟩ := declareDefcal_eq_some_iff.1 h
  exact ⟨by simp [numbered], rfl⟩

end Binds

end Lexical

mutual

/-- A statement that follows the lexical rule binds its binders, and those of the statements
nested in it, to the declarations it makes, in pre-order. -/
theorem Stmt.lexical_binds {env : Lexical} :
    (s : Stmt) → ∀ {env'}, Stmt.lexical env s = some env' →
      env.Binds env' (s.walk.flatMap (·.kind.binders))
  | .mk id range dur k, env', h => by
    rw [Stmt.walk_eq, List.flatMap_cons]
    simp only [Stmt.lexical] at h
    split at h
    · exact StmtKind.lexical_binds k h
    · cases h

theorem StmtKind.lexical_binds {env : Lexical} :
    (k : StmtKind) → ∀ {env'}, k.lexical env = some env' →
      env.Binds env' (k.binders ++ k.walkBlocks.flatMap (·.kind.binders))
  | .port _, _, h | .frame .., _, h | .waveform .., _, h | .declare .., _, h | .input .., _, h
  | .output .., _, h => by
    simpa only [StmtKind.binders, StmtKind.declared, Option.toList, StmtKind.walkBlocks,
      List.flatMap_nil, List.append_nil] using Lexical.Binds.declare h
  | .grammar _, _, h | .expr _, _, h | .assign .., _, h | .ret _, _, h | .delay .., _, h
  | .play .., _, h | .capture .., _, h | .barrier .., _, h | .update .., _, h => by
    obtain rfl := Option.some.inj h
    exact Lexical.Binds.refl _
  | .gate .., _, h => by
    simp only [StmtKind.lexical] at h
    split at h
    · obtain rfl := Option.some.inj h
      exact Lexical.Binds.refl _
    · cases h
  | .subroutine n ps ret body, _, h => by
    simp only [StmtKind.lexical, Option.bind_eq_some_iff, Option.map_eq_some_iff] at h
    obtain ⟨named, hnamed, inner, hinner, last, hbody, rfl⟩ := h
    have params := (Lexical.Binds.declareAll hinner).of_enter
    simpa only [StmtKind.binders, StmtKind.walkBlocks, List.cons_append, List.nil_append,
      List.append_assoc] using
      ((Lexical.Binds.declare hnamed).trans (params.trans
        (Stmt.blockLexical_binds body hbody))).leave
  | .defcal n ps qs ret body, _, h => by
    simp only [StmtKind.lexical, Option.bind_eq_some_iff, Option.map_eq_some_iff] at h
    obtain ⟨named, hnamed, inner, hinner, last, hbody, rfl⟩ := h
    have params := (Lexical.Binds.declareAll hinner).of_enter
    simpa only [StmtKind.binders, StmtKind.walkBlocks, List.cons_append, List.nil_append,
      List.append_assoc] using
      ((Lexical.Binds.declareDefcal hnamed).trans (params.trans
        (Stmt.blockLexical_binds body hbody))).leave
  | .cal body, _, h => by
    simpa only [StmtKind.binders, StmtKind.declared, Option.toList, StmtKind.walkBlocks,
      List.nil_append] using Stmt.blockLexical_binds body h
  | .forLoop var ty it body, _, h => by
    simp only [StmtKind.lexical, Option.bind_eq_some_iff, Option.map_eq_some_iff] at h
    obtain ⟨inner, hinner, last, hbody, rfl⟩ := h
    simpa only [StmtKind.binders, StmtKind.walkBlocks, List.singleton_append] using
      ((Lexical.Binds.declare hinner).of_enter.trans (Stmt.blockLexical_binds body hbody)).leave
  | .whileLoop c body, _, h => by
    simp only [StmtKind.lexical, Option.map_eq_some_iff] at h
    obtain ⟨last, hbody, rfl⟩ := h
    simpa only [StmtKind.binders, StmtKind.declared, Option.toList, StmtKind.walkBlocks,
      List.nil_append] using (Stmt.blockLexical_binds body hbody).of_enter.leave
  | .branch c t (some e), _, h => by
    simp only [StmtKind.lexical, Option.bind_eq_some_iff, Option.map_eq_some_iff] at h
    obtain ⟨_, ⟨thenEnd, hthen, rfl⟩, elseEnd, helse, rfl⟩ := h
    have first := (Stmt.blockLexical_binds t hthen).of_enter.leave
    have second := (Stmt.blockLexical_binds e helse).of_enter.leave
    simpa only [StmtKind.binders, StmtKind.declared, Option.toList, StmtKind.walkBlocks,
      List.nil_append, List.flatMap_append] using first.trans second
  | .branch c t none, _, h => by
    simp only [StmtKind.lexical, Option.map_eq_some_iff] at h
    obtain ⟨last, hbody, rfl⟩ := h
    simpa only [StmtKind.binders, StmtKind.declared, Option.toList, StmtKind.walkBlocks,
      List.nil_append, List.append_nil] using (Stmt.blockLexical_binds t hbody).of_enter.leave

theorem Stmt.blockLexical_binds {env : Lexical} :
    (ss : List Stmt) → ∀ {env'}, Stmt.blockLexical env ss = some env' →
      env.Binds env' ((Stmt.walkList ss).flatMap (·.kind.binders))
  | [], _, h => by
    cases h
    exact Lexical.Binds.refl _
  | s :: rest, _, h => by
    simp only [Stmt.blockLexical, Option.bind_eq_some_iff] at h
    obtain ⟨mid, hs, hrest⟩ := h
    have walk : Stmt.walkList (s :: rest) = s.walk ++ Stmt.walkList rest := rfl
    rw [walk, List.flatMap_append]
    exact (Stmt.lexical_binds s hs).trans (Stmt.blockLexical_binds rest hrest)

end

theorem Ident.filterMap_symbol_cons (i : Ident) (is : List Ident) :
    (i :: is).filterMap Ident.symbol = i.symbol.toList ++ is.filterMap Ident.symbol := by
  cases h : i.symbol <;> simp [h]

/-- The symbols a statement declares are those its binders carry, but for the named qubits of
a defcal. -/
theorem StmtKind.binds_sublist (k : StmtKind) :
    k.binds.Sublist (k.binders.filterMap Ident.symbol) := by
  cases k <;> simp [StmtKind.binds, StmtKind.binders, StmtKind.declared,
    Ident.filterMap_symbol_cons, List.filterMap_map]

/-! ### Numbers and symbols aside, analysis keeps the program -/

theorem Stmt.kind_erase (s : Stmt) : s.erase.kind = s.kind.erase := by
  cases s
  rfl

mutual
theorem Stmt.walk_erase : (s : Stmt) → s.erase.walk = s.walk.map Stmt.erase
  | .mk i r d k => by
    rw [Stmt.walk_eq, Stmt.walk_eq, List.map_cons, Stmt.kind_erase]
    exact congrArg _ (StmtKind.walkBlocks_erase k)

theorem StmtKind.walkBlocks_erase :
    (k : StmtKind) → k.erase.walkBlocks = k.walkBlocks.map Stmt.erase
  | .subroutine _ _ _ b | .defcal _ _ _ _ b | .cal b | .forLoop _ _ _ b | .whileLoop _ b =>
    Stmt.walkList_erase b
  | .branch _ t (some e) => by
    simp only [StmtKind.erase, StmtKind.walkBlocks, List.map_append, Stmt.walkList_erase]
  | .branch _ t none => by
    simp only [StmtKind.erase, StmtKind.walkBlocks, Stmt.walkList_erase, List.append_nil]
  | .grammar _ | .port _ | .frame .. | .waveform .. | .declare .. | .input .. | .output ..
  | .gate .. | .expr _ | .assign .. | .ret _ | .delay .. | .play .. | .capture .. | .barrier ..
  | .update .. => rfl

theorem Stmt.walkList_erase : (b : List Stmt) →
    Stmt.walkList (Stmt.eraseList b) = (Stmt.walkList b).map Stmt.erase
  | [] => rfl
  | s :: rest => by
    have walk : ∀ l : List Stmt, ∀ t, Stmt.walkList (t :: l) = t.walk ++ Stmt.walkList l :=
      fun _ _ => rfl
    rw [Stmt.eraseList, walk, walk, List.map_append, Stmt.walk_erase, Stmt.walkList_erase rest]
end

/-- Two blocks alike up to numbers and symbols hold as many statements at any depth. -/
theorem Stmt.length_walkList_of_erase {b b' : List Stmt}
    (same : Stmt.eraseList b' = Stmt.eraseList b) :
    (Stmt.walkList b').length = (Stmt.walkList b).length := by
  calc (Stmt.walkList b').length = ((Stmt.walkList b').map Stmt.erase).length :=
        (List.length_map _).symm
    _ = ((Stmt.walkList b).map Stmt.erase).length := by
        rw [← Stmt.walkList_erase, same, Stmt.walkList_erase]
    _ = (Stmt.walkList b).length := List.length_map _

/-! ### Analyzed programs -/

/-- An outcome whose `toBool` is `true` is `ok`, so what holds of every `ok` value holds of it. -/
theorem exists_ok_and_of_toBool {ε α : Type} {r : Except ε α} {P : α → Prop}
    (ok : r.toBool = true) (h : ∀ a, r = .ok a → P a) : ∃ a, r = .ok a ∧ P a := by
  cases r with
  | ok a => exact ⟨a, rfl, h a rfl⟩
  | error e => exact nomatch ok


namespace Program

variable {registry : Registry} {p : Program} {a : Analyzed}

/-- A successful analysis is one run of the analyzer over the program's block, from its starting
state. -/
theorem analyze_run (h : Program.analyze registry p = .ok a) :
    ∃ c c', Checker.initial registry = .ok c ∧
      (Checker.checkBlock p).run c = .ok (a.program, c') := by
  unfold Program.analyze at h
  cases started : Checker.initial registry with
  | error e =>
    rw [started] at h
    cases h
  | ok c =>
    rw [started] at h
    simp only [bind, Except.bind] at h
    cases run : (Checker.checkBlock p).run c with
    | error e =>
      rw [run] at h
      cases h
    | ok r =>
      obtain ⟨p', c'⟩ := r
      rw [run] at h
      cases h
      exact ⟨c, c', rfl, run⟩

/-- Analysis changes a program only in its statement numbers and symbols. -/
theorem analyze_erase (h : Program.analyze registry p = .ok a) :
    Stmt.eraseList a.program = Stmt.eraseList p := by
  obtain ⟨c, c', started, run⟩ := analyze_run h
  have tracked := Checker.checkBlock_tracks (Lexical.initial registry) p c
    (Checker.initial_follows started)
  rw [run] at tracked
  obtain ⟨-, ⟨erased, -⟩, -⟩ := tracked
  exact erased

/-- An analyzed program follows the lexical rule from the predefined constants and the
registry's generators. -/
theorem analyze_lexical (h : Program.analyze registry p = .ok a) :
    ∃ env, Stmt.blockLexical (Lexical.initial registry) a.program = some env := by
  obtain ⟨c, c', started, run⟩ := analyze_run h
  have tracked := Checker.checkBlock_tracks (Lexical.initial registry) p c
    (Checker.initial_follows started)
  rw [run] at tracked
  obtain ⟨env, ⟨-, lexical⟩, -⟩ := tracked
  exact ⟨env, lexical⟩

/-- The statements of an analyzed program are numbered `0, 1, 2, …` in pre-order. -/
theorem analyze_ids (h : Program.analyze registry p = .ok a) :
    (Stmt.walkList a.program).map Stmt.id = List.range (Stmt.walkList a.program).length := by
  obtain ⟨c, c', started, run⟩ := analyze_run h
  have first : c.nextId = 0 := by
    rw [Checker.initial_eq] at started
    cases declared : SymbolTable.initial.declareGenerators registry.generators with
    | ok t =>
      rw [declared] at started
      cases started
      rfl
    | error e =>
      rw [declared] at started
      cases started
  have counted := Checker.checkBlock_counts p 0 c first
  rw [run] at counted
  rw [List.range_eq_range']
  exact counted.1

/-- Two statements of an analyzed program with the same number are the same statement. -/
theorem analyze_eq_of_id_eq (h : Program.analyze registry p = .ok a) {s t : Stmt}
    (hs : s ∈ Stmt.walkList a.program) (ht : t ∈ Stmt.walkList a.program) (same : s.id = t.id) :
    s = t := by
  have distinct : ((Stmt.walkList a.program).map Stmt.id).Nodup := by
    rw [analyze_ids h]
    exact List.nodup_range
  exact List.inj_on_of_nodup_map distinct hs ht same

/-- Analysis numbers the statements of a program in pre-order: walked each statement before the
statements of its blocks, and the blocks in order, the analyzed program's statements carry
`0, 1, …, n - 1`, where `n` counts the statements of the program at any depth. No two of them
share a number. -/
theorem analyze_numbers_preorder (h : Program.analyze registry p = .ok a) :
    (Stmt.walkList a.program).length = (Stmt.walkList p).length ∧
    (Stmt.walkList a.program).map Stmt.id = List.range (Stmt.walkList p).length ∧
    ((Stmt.walkList a.program).map Stmt.id).Nodup := by
  have counted : (Stmt.walkList a.program).length = (Stmt.walkList p).length :=
    Stmt.length_walkList_of_erase (analyze_erase h)
  have numbered := analyze_ids h
  rw [counted] at numbered
  refine ⟨counted, numbered, ?_⟩
  rw [numbered]
  exact List.nodup_range

/-- A program whose statements nest three deep is numbered in pre-order, the `else` branch
after the `then` branch. -/
theorem analyze_numbers_preorder_nested :
    ∃ a, Program.analyze Registry.empty
      [.ofKind (.declare ⟨"x", {}, none⟩ (.int none false) (some (.lit (.int 1)))),
       .ofKind (.branch (.lit (.bool true))
         [.ofKind (.whileLoop (.lit (.bool false))
           [.ofKind (.assign ⟨"x", {}, none⟩ none (.lit (.int 2)))])]
         (some [.ofKind (.expr (.ident ⟨"x", {}, none⟩))]))] = .ok a ∧
    (Stmt.walkList a.program).length = 5 ∧
    (Stmt.walkList a.program).map Stmt.id = List.range 5 ∧
    ((Stmt.walkList a.program).map Stmt.id).Nodup :=
  exists_ok_and_of_toBool (by decide +kernel) fun _ analyzed => analyze_numbers_preorder analyzed

/-- Every binder of an analyzed program carries a symbol, and no two of its declarations share
one. -/
theorem analyze_declarations (h : Program.analyze registry p = .ok a) :
    a.program.declarations.Nodup ∧
      ∀ s ∈ Stmt.walkList a.program, ∀ i ∈ s.kind.binders, ∃ sym, i.symbol = some sym := by
  obtain ⟨env, lexical⟩ := analyze_lexical h
  set binders := (Stmt.walkList a.program).flatMap (·.kind.binders) with binders_eq
  set first := (Lexical.initial registry).next
  have numbered : binders.map Ident.symbol = (List.range' first binders.length).map some :=
    (Stmt.blockLexical_binds a.program lexical).symbols
  constructor
  · have carried : binders.filterMap Ident.symbol = List.range' first binders.length :=
      calc binders.filterMap Ident.symbol = (binders.map Ident.symbol).filterMap id := by
            simp [List.filterMap_map]
        _ = _ := by
            rw [numbered]
            simp
    have sub : a.program.declarations.Sublist (binders.filterMap Ident.symbol) := by
      rw [binders_eq, List.filterMap_flatMap]
      exact List.Sublist.flatMap_right _ fun s _ => s.kind.binds_sublist
    rw [carried] at sub
    exact sub.nodup List.nodup_range'
  · intro s hs i hi
    have carries : i.symbol ∈ (List.range' first binders.length).map some := by
      rw [← numbered]
      exact List.mem_map_of_mem (List.mem_flatMap.2 ⟨s, hs, hi⟩)
    obtain ⟨sym, -, same⟩ := List.mem_map.1 carries
    exact ⟨sym, same.symm⟩

end Program

end PulseCompiler
