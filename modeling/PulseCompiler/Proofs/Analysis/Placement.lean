import PulseCompiler.Proofs.Analysis.Contract
set_option autoImplicit false

/-!
# Where statements may stand

A statement's place is the chain of statements enclosing it, innermost first, and where it may
stand is a rule on that chain (`StmtKind.legalIn`): calibration statements inside a `defcal`, or
inside a `cal` block and no `def`; definitions and `cal` blocks at the top level only; `return`
inside a definition; everything else anywhere. Loops and branches are looked through.

The analyzer decides placement on its scope table instead. The table's shape inside a chain is
a function of the chain (`chainShape`): each enclosing definition, loop and branch has opened a
scope of its kind and each `cal` block has been counted. The scope state, and so the verdict,
is a function of the shape (`SymbolTable.state_eq_ofShape`), and on the shape of a chain it is
the rule on the chain (`allows_chainShape`).

Main statement: the analyzer accepts only programs whose statements all stand where they may,
and it reports no statement out of place in such a program (`Program.analyze_placement`).
-/

namespace PulseCompiler

namespace StmtKind

/-- A `def` or a `defcal`. -/
def isCallable : StmtKind → Bool
  | subroutine .. | defcal .. => true
  | _ => false

/-- A `defcal`. -/
def isDefcal : StmtKind → Bool
  | defcal .. => true
  | _ => false

/-- A `cal` block. -/
def isCal : StmtKind → Bool
  | cal _ => true
  | _ => false

/-- A statement with blocks of its own: the only statements that enclose others. -/
def opensBlock : StmtKind → Bool
  | subroutine .. | defcal .. | cal _ | forLoop .. | whileLoop .. | branch .. => true
  | _ => false

/-- Whether a statement of this kind may stand inside `chain`, the statements enclosing it,
innermost first. -/
def legalIn (chain : List StmtKind) : StmtKind → Bool
  | delay .. | play .. | capture .. | update .. | port _ | frame .. | waveform .. =>
    match chain.find? isCallable with
    | some k => k.isDefcal
    | none => chain.any isCal
  | cal _ | subroutine .. | defcal .. | grammar _ | input .. | output .. => chain.isEmpty
  | ret _ => chain.any isCallable
  | _ => true

/-- The scope a block of this kind opens: none for a `cal` block. -/
def scopeKind? : StmtKind → Option ScopeKind
  | subroutine .. => some .subroutine
  | defcal .. => some .defcal
  | forLoop .. | whileLoop .. | branch .. => some .local
  | _ => none

end StmtKind

mutual
/-- A statement, and every statement nested in it, stands where it may inside `chain`. -/
def Stmt.placedIn (chain : List StmtKind) : Stmt → Bool
  | .mk _ _ _ k => k.legalIn chain && k.blocksPlacedIn (k :: chain)

/-- Every statement of the blocks of a kind stands where it may inside `chain`. -/
def StmtKind.blocksPlacedIn (chain : List StmtKind) : StmtKind → Bool
  | .subroutine _ _ _ b | .defcal _ _ _ _ b | .cal b | .forLoop _ _ _ b | .whileLoop _ b =>
    Stmt.blockPlacedIn chain b
  | .branch _ t (some e) => Stmt.blockPlacedIn chain t && Stmt.blockPlacedIn chain e
  | .branch _ t none => Stmt.blockPlacedIn chain t
  | _ => true

/-- Every statement of a block stands where it may inside `chain`. -/
def Stmt.blockPlacedIn (chain : List StmtKind) : List Stmt → Bool
  | [] => true
  | s :: rest => s.placedIn chain && Stmt.blockPlacedIn chain rest
end

/-- Every statement of a program, at any depth, stands where it may. -/
def Program.PlacedLegally (p : Program) : Prop := Stmt.blockPlacedIn [] p = true

/-- A `return` in a loop of a `def` stands where it may, and a `play` there does not. -/
example : Stmt.blockPlacedIn [] [.ofKind (.subroutine ⟨"f", {}, none⟩ [] none
    [.ofKind (.whileLoop (.lit (.bool true)) [.ofKind (.ret none)])])] = true := by decide

example : Stmt.blockPlacedIn [] [.ofKind (.subroutine ⟨"f", {}, none⟩ [] none
    [.ofKind (.whileLoop (.lit (.bool true))
      [.ofKind (.play ⟨"d", {}, none⟩ (.lit (.bool true)))])])] = false := by decide

/-- The shape of the scope table inside the blocks of `chain`: the scopes they opened,
innermost first, above the global one, and the number of `cal` blocks among them. -/
def chainShape (chain : List StmtKind) : List ScopeKind × Nat :=
  (chain.filterMap StmtKind.scopeKind? ++ [.global], chain.countP StmtKind.isCal)

/-- The scope state of a table of a shape. -/
def ScopeState.ofShape (σ : List ScopeKind × Nat) : ScopeState :=
  { enclosing := (σ.1.find? (· != .local)).getD .global
    inLocal := σ.1.headD .global == .local
    calibration := σ.2 > 0 }

theorem SymbolTable.state_eq_ofShape {t : SymbolTable} (global : t.global.kind = .global) :
    t.state = .ofShape t.shape := by
  have enclosing : ((t.inner.map Scope.kind ++ [t.global.kind]).find? (· != .local)).getD .global
      = ((t.inner.find? (·.kind != .local)).map (·.kind)).getD .global := by
    have composed : ((· != ScopeKind.local) ∘ Scope.kind) = fun s : Scope => s.kind != .local := rfl
    rw [List.find?_append, List.find?_map, composed]
    cases t.inner.find? (·.kind != .local) <;> simp [global]
  have inLocal : (t.inner.map Scope.kind ++ [t.global.kind]).headD .global = t.current.kind := by
    unfold current
    cases t.inner <;> rfl
  simp only [state, ScopeState.ofShape, shape, scopes, List.map_append, List.map_cons,
    List.map_nil, enclosing, inLocal]

namespace StmtKind

/-- The innermost enclosing scope that is not a control-flow block is that of the innermost
enclosing definition, or the global one. -/
theorem find?_chainShape (chain : List StmtKind) :
    ((chainShape chain).1.find? (· != .local)).getD .global =
      ((chain.find? isCallable).bind scopeKind?).getD .global := by
  have callable : (fun k => (scopeKind? k).any (· != .local)) = isCallable := by
    funext k
    cases k <;> rfl
  rw [chainShape, List.find?_append, List.find?_filterMap, callable]
  cases chain.find? isCallable <;> simp

theorem scopeKind?_of_isCallable {k : StmtKind} (h : k.isCallable = true) :
    k.scopeKind? = some (if k.isDefcal then .defcal else .subroutine) := by
  cases k <;> simp_all [isCallable, isDefcal, scopeKind?]

theorem blocks_eq_nil_of_opensBlock {k : StmtKind} (h : k.opensBlock = false) : k.blocks = [] := by
  cases k <;> simp_all [opensBlock, blocks]

end StmtKind

section Classes

variable {chain : List StmtKind}

theorem allows_calibration_chainShape :
    (ScopeState.ofShape (chainShape chain)).allows .calibration =
      match chain.find? StmtKind.isCallable with
      | some k => k.isDefcal
      | none => chain.any StmtKind.isCal := by
  simp only [ScopeState.allows, ScopeState.ofShape]
  rw [StmtKind.find?_chainShape]
  cases found : chain.find? StmtKind.isCallable with
  | none => simp [chainShape, List.countP_pos_iff, List.any_eq]
  | some k =>
    rw [Option.bind_some, StmtKind.scopeKind?_of_isCallable (List.find?_some found)]
    dsimp only
    cases k.isDefcal <;> rfl

theorem allows_ret_chainShape :
    (ScopeState.ofShape (chainShape chain)).allows .ret = chain.any StmtKind.isCallable := by
  simp only [ScopeState.allows, ScopeState.ofShape]
  rw [StmtKind.find?_chainShape]
  cases found : chain.find? StmtKind.isCallable with
  | none =>
    have none := List.find?_eq_none.1 found
    simp_all [List.any_eq_false]
  | some k =>
    have callable := List.find?_some found
    rw [Option.bind_some, StmtKind.scopeKind?_of_isCallable callable]
    have : chain.any StmtKind.isCallable = true :=
      List.any_eq_true.2 ⟨k, List.mem_of_find?_eq_some found, callable⟩
    rw [this]
    cases k.isDefcal <;> rfl

/-- Inside any statement that opens a block, the top level is left: a definition opens its own
scope, a loop or branch a control-flow scope, and a `cal` block is counted. -/
theorem allows_topLevel_chainShape (blocks : chain.all StmtKind.opensBlock = true) :
    (ScopeState.ofShape (chainShape chain)).allows .topLevel = chain.isEmpty := by
  cases chain with
  | nil => rfl
  | cons k rest =>
    have opens := List.all_eq_true.1 blocks k List.mem_cons_self
    cases k <;> simp_all [StmtKind.opensBlock, ScopeState.allows, ScopeState.ofShape, chainShape,
      StmtKind.scopeKind?, StmtKind.isCal]

end Classes

/-- On the shape of a chain of enclosing statements, the analyzer's table of legal statement
classes is the rule on the chain. -/
theorem allows_chainShape {chain : List StmtKind}
    (blocks : chain.all StmtKind.opensBlock = true) (k : StmtKind) :
    (ScopeState.ofShape (chainShape chain)).allows (Checker.placement k).2 = k.legalIn chain := by
  cases k <;> simp only [Checker.placement, StmtKind.legalIn, allows_calibration_chainShape,
    allows_ret_chainShape, allows_topLevel_chainShape blocks] <;> rfl

theorem chainShape_cons_of_scopeKind? {k : StmtKind} {kind : ScopeKind} (chain : List StmtKind)
    (h : k.scopeKind? = some kind) :
    chainShape (k :: chain) = (kind :: (chainShape chain).1, (chainShape chain).2) := by
  cases k <;> simp_all [chainShape, StmtKind.scopeKind?, StmtKind.isCal]

theorem chainShape_cal (body : List Stmt) (chain : List StmtKind) :
    chainShape (.cal body :: chain) = ((chainShape chain).1, (chainShape chain).2 + 1) := by
  simp [chainShape, List.filterMap_cons, List.countP_cons, StmtKind.scopeKind?, StmtKind.isCal]

theorem StmtKind.scopeKind?_ne_global {k : StmtKind} {kind : ScopeKind}
    (h : k.scopeKind? = some kind) : kind ≠ .global := by
  cases k <;> simp [scopeKind?] at h <;> simp [← h]

/-- The global scope stays at the bottom of a table of a chain's shape. -/
theorem SymbolTable.global_kind_of_shape {t : SymbolTable} {chain : List StmtKind}
    (h : t.shape = chainShape chain) : t.global.kind = .global := by
  have kinds := congrArg Prod.fst h
  simp only [shape, scopes, chainShape, List.map_append, List.map_cons, List.map_nil] at kinds
  exact List.singleton_inj.1 (List.append_inj' kinds rfl).2

/-- Inside the blocks of a chain, the analyzer allows exactly the statements the rule on the
chain allows. -/
theorem SymbolTable.allows_of_shape {t : SymbolTable} {chain : List StmtKind}
    (h : t.shape = chainShape chain) (blocks : chain.all StmtKind.opensBlock = true)
    (k : StmtKind) :
    t.allows (Checker.placement k).2 = k.legalIn chain := by
  rw [allows, state_eq_ofShape (global_kind_of_shape h), h, allows_chainShape blocks]

namespace Checker

theorem takeId_steady : Steady takeId := by
  intro σ
  unfold takeId
  exact Contract.get_bind fun c hc => Contract.set_bind fun _ _ => Contract.pure fun _ same =>
    same ▸ hc

/-- A step run inside the blocks of `chain` keeps the shape of the scope table there, succeeds
only when `placed` holds, and reports a statement out of place only when it does not. -/
def Places {α : Type} (x : CheckM α) (chain : List StmtKind) (placed : Bool) : Prop :=
  Contract x (fun c => c.table.shape = chainShape chain)
    (fun _ c => c.table.shape = chainShape chain ∧ placed = true)
    (fun e => e.Misplaced → placed = false)

namespace Places

variable {α β : Type} {chain : List StmtKind} {p q : Bool}

theorem of_steady {x : CheckM α} (h : Steady x) : Places x chain true :=
  (h (chainShape chain)).consequence (fun _ h => h) (fun _ _ h => ⟨h, rfl⟩)
    (fun _ h misplaced => absurd misplaced h)

theorem bind {x : CheckM α} {f : α → CheckM β} (hx : Places x chain p)
    (hf : ∀ a, Places (f a) chain q) : Places (x >>= f) chain (p && q) := by
  cases p with
  | false =>
    have never : Contract x (fun c => c.table.shape = chainShape chain) (fun _ _ => False)
        (fun e => e.Misplaced → (false && q) = false) :=
      hx.consequence (fun _ h => h) (fun _ _ ⟨_, h⟩ => nomatch h) (fun _ h => h)
    exact Contract.bind never fun _ _ h => h.elim
  | true =>
    refine Contract.bind (hx.consequence (fun _ h => h) (fun _ _ h => h)
      (fun _ h misplaced => nomatch h misplaced)) fun a => ?_
    exact (hf a).consequence (fun _ h => h.1) (fun _ _ h => h) (fun _ h => h)

theorem at_state {x : CheckM α} (h : Places x chain p) {c : Checker}
    (hc : c.table.shape = chainShape chain) :
    Contract x (· = c) (fun _ c' => c'.table.shape = chainShape chain ∧ p = true)
      (fun e => e.Misplaced → p = false) :=
  h.consequence (fun _ same => same ▸ hc) (fun _ _ h => h) (fun _ h => h)

theorem after {x : CheckM α} {f : α → CheckM β} (hx : Steady x)
    (hf : ∀ a, Places (f a) chain p) : Places (x >>= f) chain p :=
  (of_steady hx).bind hf

theorem bind_steady {x : CheckM α} {f : α → CheckM β} (hx : Places x chain p)
    (hf : ∀ a, Steady (f a)) : Places (x >>= f) chain p :=
  Bool.and_true p ▸ hx.bind fun a => of_steady (hf a)

/-- A block that opens a scope of its kind is placed where its statements are. -/
theorem withScope (k : StmtKind) {kind : ScopeKind} {range : TextRange} {step : CheckM α}
    (opens : k.scopeKind? = some kind) (h : Places step (k :: chain) p) :
    Places (Checker.withScope kind range step) chain p := by
  unfold Places at h ⊢
  rw [chainShape_cons_of_scopeKind? chain opens] at h
  exact withScope_shape (StmtKind.scopeKind?_ne_global opens) h

end Places

/-- A `cal` block opens no scope: it is counted while its body is analyzed. -/
theorem cal_places {chain : List StmtKind} {p : Bool} {body : List Stmt} {range : TextRange}
    (h : Places (checkBlock body) (.cal body :: chain) p) :
    Places (checkKind range (.cal body)) chain p := by
  unfold Places at h ⊢
  rw [chainShape_cal] at h
  simp only [checkKind]
  have entered : Contract (modify fun c => { c with table := c.table.enterCalibration })
      (fun c => c.table.shape = chainShape chain)
      (fun _ c => c.table.shape = ((chainShape chain).1, (chainShape chain).2 + 1))
      (fun e => e.Misplaced → p = false) :=
    Contract.modify fun c hc => by
      show c.table.enterCalibration.shape = _
      rw [SymbolTable.shape_enterCalibration, hc]
  refine Contract.bind entered fun _ => Contract.bind h fun body' => ?_
  refine Contract.get_bind fun c hc => ?_
  obtain ⟨inside, placed⟩ := hc
  split
  · rename_i t left
    refine Contract.set_bind fun _ _ => Contract.pure fun _ same => ?_
    have closed := SymbolTable.shape_leaveCalibration left
    rw [inside] at closed
    simp only [Prod.mk.injEq, Nat.add_right_cancel_iff] at closed
    rw [same]
    exact ⟨Prod.ext closed.1.symm closed.2.symm, placed⟩
  · rename_i e left
    obtain ⟨-, none⟩ := SymbolTable.leaveCalibration_eq_error_iff.1 left
    have depth := congrArg Prod.snd inside
    simp [SymbolTable.shape, none] at depth

/-- Statements without blocks open and close nothing, and report no statement out of place. -/
theorem checkKind_steady (range : TextRange) {k : StmtKind} (leaf : k.opensBlock = false) :
    Steady (checkKind range k) := by
  by_cases call : ∃ n args qs, k = .gate n args qs
  · obtain ⟨n, args, qs, rfl⟩ := call
    simp only [checkKind]
    exact Steady.of_readOnly (checkGate_readOnly _ _ _ _)
  · intro σ
    have steps := Keeps.leafSteps (f := fun c => c.table.shape) fun _ _ _ _ _ hd =>
      SymbolTable.shape_declare hd
    have kept := checkKind_leaf steps range (StmtKind.blocks_eq_nil_of_opensBlock leaf)
      (fun n args qs same => call ⟨n, args, qs, same⟩) σ
    exact kept.consequence (fun _ h => h) (fun _ _ h => h.1) (fun _ h => h)

mutual

/-- A statement analyzed inside the blocks of `chain` is accepted only if it, and everything
nested in it, stands where it may, and is reported out of place only if something does not. -/
theorem checkStmt_places (chain : List StmtKind)
    (blocks : chain.all StmtKind.opensBlock = true) :
    (s : Stmt) → Places (checkStmt s) chain (s.placedIn chain)
  | .mk id range dur k => by
    simp only [checkStmt, Stmt.placedIn]
    refine Places.after takeId_steady fun _ => ?_
    refine Contract.get_bind fun c hc => ?_
    have allows := SymbolTable.allows_of_shape hc blocks k
    split
    · rename_i refused
      refine Contract.fail_bind fun _ => ?_
      rw [← allows]
      simp_all
    · rename_i allowed
      have legal : k.legalIn chain = true := by simpa [allows] using allowed
      rw [legal]
      exact ((checkKind_places range chain blocks k).bind_steady fun _ => Steady.pure).at_state hc

/-- The statements nested in a statement of kind `k` are placed inside `k :: chain`. -/
theorem checkKind_places (range : TextRange) (chain : List StmtKind)
    (blocks : chain.all StmtKind.opensBlock = true) :
    (k : StmtKind) → Places (checkKind range k) chain (k.blocksPlacedIn (k :: chain))
  | .subroutine n ps ret body => by
    have inside := checkBlock_places (.subroutine n ps ret body :: chain) blocks body
    simp only [checkKind, StmtKind.blocksPlacedIn]
    refine Places.after (declareIdent_steady _ _) fun _ => ?_
    refine Places.bind_steady (Places.withScope (.subroutine n ps ret body) rfl ?_) fun _ =>
      Steady.pure
    exact Places.after (declareParams_steady _) fun _ => inside.bind_steady fun _ => Steady.pure
  | .defcal n ps qs ret body => by
    have inside := checkBlock_places (.defcal n ps qs ret body :: chain) blocks body
    simp only [checkKind, StmtKind.blocksPlacedIn]
    refine Contract.get_bind fun c hc => ?_
    split
    · rename_i r declared
      simp only [pure_bind]
      refine Contract.set_bind fun _ _ => ?_
      have opened : Places (withScope .defcal range (declareParams ps >>= fun ps' =>
          declareQubits qs >>= fun qs' => checkBlock body >>= fun body' =>
            pure (ps', qs', body'))) chain
          (Stmt.blockPlacedIn (.defcal n ps qs ret body :: chain) body) :=
        Places.withScope (.defcal n ps qs ret body) rfl (Places.after (declareParams_steady _)
          fun _ => Places.after (declareQubits_steady _) fun _ =>
            inside.bind_steady fun _ => Steady.pure)
      refine (opened.bind_steady fun _ => Steady.pure).at_state ?_
      rw [record_table]
      exact (SymbolTable.shape_declare declared).trans hc
    · exact Contract.fail_bind fun ⟨_, _, h⟩ => nomatch h
  | .cal body => cal_places (checkBlock_places (.cal body :: chain) blocks body)
  | .forLoop var ty it body => by
    have inside := checkBlock_places (.forLoop var ty it body :: chain) blocks body
    simp only [checkKind, StmtKind.blocksPlacedIn]
    have opened : ∀ it', Places (withScope .local range (declareIdent var (.classical ty) >>=
        fun var' => checkBlock body >>= fun body' => pure (var', body')) >>= fun x =>
          pure (StmtKind.forLoop x.1 ty it' x.2)) chain
          (Stmt.blockPlacedIn (.forLoop var ty it body :: chain) body) := fun _ =>
      (Places.withScope (.forLoop var ty it body) rfl (Places.after (declareIdent_steady _ _)
        fun _ => inside.bind_steady fun _ => Steady.pure)).bind_steady fun _ => Steady.pure
    cases it with
    | range start step stop =>
      refine Places.after (Steady.of_readOnly (resolveExpr_readOnly _)) fun _ => ?_
      cases step with
      | some e =>
        refine Places.after (Steady.of_readOnly (resolveExpr_readOnly _)) fun _ => ?_
        refine Places.after Steady.pure fun _ => ?_
        refine Places.after (Steady.of_readOnly (resolveExpr_readOnly _)) fun _ => ?_
        exact Places.after Steady.pure fun _ => opened _
      | none =>
        refine Places.after Steady.pure fun _ => ?_
        refine Places.after (Steady.of_readOnly (resolveExpr_readOnly _)) fun _ => ?_
        exact Places.after Steady.pure fun _ => opened _
    | set values =>
      refine Places.after (Steady.of_readOnly (resolveExprs_readOnly _)) fun _ => ?_
      exact Places.after Steady.pure fun _ => opened _
  | .whileLoop c body => by
    have inside := checkBlock_places (.whileLoop c body :: chain) blocks body
    simp only [checkKind, StmtKind.blocksPlacedIn]
    refine Places.after (Steady.of_readOnly (resolveExpr_readOnly _)) fun _ => ?_
    exact (Places.withScope (.whileLoop c body) rfl inside).bind_steady fun _ => Steady.pure
  | .branch c t (some e) => by
    have thenPlaced := checkBlock_places (.branch c t (some e) :: chain) blocks t
    have elsePlaced := checkBlock_places (.branch c t (some e) :: chain) blocks e
    simp only [checkKind, StmtKind.blocksPlacedIn]
    refine Places.after (Steady.of_readOnly (resolveExpr_readOnly _)) fun _ => ?_
    refine (Places.withScope (.branch c t (some e)) rfl thenPlaced).bind fun _ => ?_
    refine Places.bind_steady (Places.withScope (.branch c t (some e)) rfl elsePlaced) fun _ => ?_
    exact Steady.pure.bind fun _ => Steady.pure
  | .branch c t none => by
    have inside := checkBlock_places (.branch c t none :: chain) blocks t
    simp only [checkKind, StmtKind.blocksPlacedIn]
    refine Places.after (Steady.of_readOnly (resolveExpr_readOnly _)) fun _ => ?_
    refine (Places.withScope (.branch c t none) rfl inside).bind_steady fun _ => ?_
    exact Steady.pure.bind fun _ => Steady.pure
  | .grammar _ | .port _ | .frame .. | .waveform .. | .declare .. | .input .. | .output ..
  | .gate .. | .expr _ | .assign .. | .ret _ | .delay .. | .play .. | .capture .. | .barrier ..
  | .update .. => Places.of_steady (checkKind_steady range rfl)

/-- A block analyzed inside `chain` is accepted only if all its statements stand where they
may, and is reported out of place only if one does not. -/
theorem checkBlock_places (chain : List StmtKind)
    (blocks : chain.all StmtKind.opensBlock = true) :
    (b : List Stmt) → Places (checkBlock b) chain (Stmt.blockPlacedIn chain b)
  | [] => by
    simp only [checkBlock, Stmt.blockPlacedIn]
    exact Places.of_steady Steady.pure
  | s :: rest => by
    simp only [checkBlock, Stmt.blockPlacedIn]
    exact (checkStmt_places chain blocks s).bind fun _ =>
      (checkBlock_places chain blocks rest).bind_steady fun _ => Steady.pure

end

/-- The analysis starts at the top level, outside any block. -/
theorem initial_shape {registry : Registry} {c : Checker} (h : initial registry = .ok c) :
    c.table.shape = chainShape [] := by
  rw [initial_eq] at h
  cases declared : SymbolTable.initial.declareGenerators registry.generators with
  | ok t =>
    rw [declared] at h
    cases h
    exact SymbolTable.declareGenerators_shape declared
  | error e =>
    rw [declared] at h
    cases h

theorem initial_not_misplaced {registry : Registry} {e : SemanticError}
    (h : initial registry = .error e) : ¬ e.Misplaced := by
  rw [initial_eq] at h
  cases declared : SymbolTable.initial.declareGenerators registry.generators with
  | ok t =>
    rw [declared] at h
    cases h
  | error e' =>
    rw [declared] at h
    cases h
    exact SymbolTable.declareGenerators_not_misplaced declared

end Checker

/-- The analyzer accepts a program only if every statement of it stands where it may, and it
reports no statement out of place in a program whose statements all stand where they may. -/
theorem Program.analyze_placement (registry : Registry) (p : Program) :
    ((∃ a, Program.analyze registry p = .ok a) → p.PlacedLegally) ∧
    (p.PlacedLegally → ∀ e, Program.analyze registry p = .error e →
      ∀ keyword scope, e.cause ≠ .illegalPlacement keyword scope) := by
  have placed := Checker.checkBlock_places [] rfl p
  unfold Program.analyze
  cases started : Checker.initial registry with
  | error e =>
    refine ⟨fun ⟨_, h⟩ => (nomatch h), fun _ e' h keyword scope misplaced => ?_⟩
    cases h
    exact Checker.initial_not_misplaced started ⟨keyword, scope, misplaced⟩
  | ok c =>
    have holds := placed c (Checker.initial_shape started)
    simp only [bind, Except.bind]
    cases run : (Checker.checkBlock p).run c with
    | ok r =>
      rw [run] at holds
      exact ⟨fun _ => holds.2, fun _ e h => (nomatch h)⟩
    | error e =>
      rw [run] at holds
      refine ⟨fun ⟨_, h⟩ => (nomatch h), fun legal e' h keyword scope misplaced => ?_⟩
      cases h
      have refused : Stmt.blockPlacedIn [] p = false := holds ⟨keyword, scope, misplaced⟩
      exact Bool.noConfusion (legal.symm.trans refused)

end PulseCompiler
