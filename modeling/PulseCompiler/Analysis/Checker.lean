import PulseCompiler.Analysis.Error
import PulseCompiler.Analysis.Overload
import PulseCompiler.Program.Stmt
set_option autoImplicit false

/-!
# Semantic analysis

One pre-order walk over a program that numbers every statement, binds every declaration in
the scope table, resolves every identifier to its symbol, checks that each statement stands
where it is allowed, and checks the arity and parameter types of calls. The first error ends
the walk.

A defcal is bound under its mangled name and remembered as an overload of its plain name; a
gate call picks the overload with the same number of arguments whose qubits match best, the
first of equally good ones.
-/

namespace PulseCompiler

/-- A defcal overload: its qubits (`none` for a named qubit), symbol and signature. -/
structure Overload where
  qubits : List (Option Nat)
  symbol : SymbolId
  signature : Signature
  deriving Repr, Inhabited

/-- The analyzer's state: the scope table, the overloads of each defcal name in order of
definition, and the number the next statement gets. -/
structure Checker where
  table : SymbolTable
  overloads : List (String × List Overload)
  nextId : Nat
  deriving Inhabited

/-- Analysis steps: they update the analyzer's state or stop with an error. -/
abbrev CheckM := StateT Checker (Except SemanticError)

namespace Checker

/-- Stops with an error. -/
def fail {α : Type} (cause : ErrorCause) (range : TextRange) : CheckM α :=
  throw ⟨cause, range⟩

/-- The overloads recorded under a name. -/
def overloadsOf (c : Checker) (name : String) : Option (List Overload) :=
  (c.overloads.find? (·.1 == name)).map (·.2)

/-- Records one more overload of a name, after those already recorded. -/
def record (c : Checker) (name : String) (o : Overload) : Checker :=
  if c.overloads.any (·.1 == name) then
    { c with overloads := c.overloads.map fun (n, os) =>
        if n == name then (n, os ++ [o]) else (n, os) }
  else { c with overloads := c.overloads ++ [(name, [o])] }

/-- Takes the next statement number. -/
def takeId : CheckM Nat := do
  let c ← get
  set { c with nextId := c.nextId + 1 }
  pure c.nextId

/-- Binds an identifier's name in the innermost scope and annotates it with the new symbol. -/
def declareIdent (i : Ident) (kind : SymbolKind) : CheckM Ident := do
  let c ← get
  match c.table.declare i.name kind with
  | .ok (id, t) =>
    set { c with table := t }
    pure { i with symbol := some id }
  | .error e => fail (ErrorCause.ofSymbolError i.name e) i.range

/-- Looks an identifier's name up and annotates it with the symbol found. -/
def resolveIdent (i : Ident) : CheckM Ident := do
  match (← get).table.resolve i.name with
  | .ok r => pure { i with symbol := some r.id }
  | .error e => fail (ErrorCause.ofSymbolError i.name e) i.range

/-- The type of a reference to a resolved identifier. -/
def identType (t : SymbolTable) (i : Ident) : Ty :=
  match i.symbol with
  | some id => t.typeOf id
  | none => .undefined

mutual
/-- The type of an expression whose identifiers are resolved. -/
def exprType (t : SymbolTable) : Expr → Ty
  | .lit (.bool _) => .bool true
  | .lit (.int _) => .int none true
  | .lit (.float _) => .float none true
  | .lit (.imaginary _) => .complex none true
  | .lit (.duration ..) => .duration true
  | .ident i => identType t i
  | .binary (.arith _) l r => (exprType t l).promote (exprType t r)
  | .binary (.cmp _) .. | .binary (.logic _) .. => .bool false
  | .binary .concat .. => .waveform
  | .unary .not _ => .bool false
  | .unary .neg e => exprType t e
  | .call n _ => identType t n
  | .array items =>
    match exprTypes t items with
    | [] => .array (.float none true) 0
    | first :: rest => .array (rest.foldl Ty.promote first) items.length

/-- Types of a list of expressions. -/
def exprTypes (t : SymbolTable) : List Expr → List Ty
  | [] => []
  | e :: rest => exprType t e :: exprTypes t rest
end

/-- Refuses a value of type `found` where `expected` is declared. -/
def checkAssignable (name : String) (found expected : Ty) (range : TextRange) : CheckM Unit :=
  if found.assignableTo expected then pure ()
  else fail (.typeMismatch name expected found) range

/-- Resolves an identifier and requires its type to fit `expected`. -/
def expectType (i : Ident) (expected : Ty) : CheckM Ident := do
  let i ← resolveIdent i
  checkAssignable i.name (identType (← get).table i) expected i.range
  pure i

/-- Resolves an assignment target, which must be a classical variable that is not constant,
and gives its type. -/
def expectVariable (i : Ident) : CheckM (Ident × Ty) := do
  let i ← resolveIdent i
  let t := (← get).table
  match i.symbol.bind t.get? with
  | some ⟨_, .classical ty, _⟩ =>
    if ty.isConst then fail (.typeMismatch i.name ty.withoutConst ty) i.range else pure (i, ty)
  | some s => fail (.typeMismatch i.name s.kind.type.withoutConst s.kind.type) i.range
  | none => fail (.undeclared i.name) i.range

/-- Checks the number of arguments, then each argument's type against its parameter. -/
def checkArguments (name : String) (sig : Signature) (args : List Expr) (range : TextRange) :
    CheckM Unit := do
  if sig.arity != args.length then fail (.arity name sig.arity args.length) range
  let t := (← get).table
  for ((pname, pty), arg) in sig.params.zip args do
    checkAssignable pname (exprType t arg) pty range

mutual
/-- Resolves every identifier of an expression, checking the calls in it. -/
def resolveExpr : Expr → CheckM Expr
  | .lit l => pure (.lit l)
  | .ident i => do pure (.ident (← resolveIdent i))
  | .binary op l r => do
    let l ← resolveExpr l
    let r ← resolveExpr r
    pure (.binary op l r)
  | .unary op e => do pure (.unary op (← resolveExpr e))
  | .call n args => do
    let args ← resolveExprs args
    let n ← resolveIdent n
    let t := (← get).table
    let sig ← match n.symbol.bind t.get? with
      | some ⟨_, .subroutine s, _⟩ => pure s
      | some ⟨_, .generator s, _⟩ => pure s
      | _ => fail (.notCallable n.name) n.range
    checkArguments n.name sig args n.range
    pure (.call n args)
  | .array items => do pure (.array (← resolveExprs items))

/-- Resolves a list of expressions in order. -/
def resolveExprs : List Expr → CheckM (List Expr)
  | [] => pure []
  | e :: rest => do
    let e ← resolveExpr e
    let rest ← resolveExprs rest
    pure (e :: rest)
end

/-- Resolves an expression and gives its type. -/
def typed (e : Expr) : CheckM (Expr × Ty) := do
  let e ← resolveExpr e
  pure (e, exprType (← get).table e)

/-- Runs a step in a new scope of a kind, closing the scope afterwards. -/
def withScope {α : Type} (kind : ScopeKind) (range : TextRange) (step : CheckM α) : CheckM α := do
  let c ← get
  match c.table.enter kind with
  | some t => set { c with table := t }
  | none => pure ()
  let r ← step
  let c ← get
  match c.table.leave with
  | .ok (_, t) => set { c with table := t }
  | .error _ => fail .scopeUnderflow range
  pure r

/-- Declares parameters, each with the symbol kind of its type. -/
def declareParams (ps : List Param) : CheckM (List Param) :=
  ps.mapM fun p => do pure { p with name := ← declareIdent p.name (SymbolKind.ofType p.ty) }

/-- Declares the named qubits of a defcal. -/
def declareQubits (qs : List Qubit) : CheckM (List Qubit) :=
  qs.mapM fun
    | .named i => do pure (.named (← declareIdent i .qubit))
    | q => pure q

/-- Resolves the named qubits of a call, which must be qubits. -/
def expectQubits (qs : List Qubit) : CheckM (List Qubit) :=
  qs.mapM fun
    | .named i => do pure (.named (← expectType i .qubit))
    | q => pure q

/-- The signature of a definition. -/
def signatureOf (ps : List Param) (ret : Option Ty) : Signature :=
  ⟨ps.map fun p => (p.name.name, p.ty), ret⟩

/-- The keyword naming a statement in messages, and its placement class. -/
def placement : StmtKind → String × StmtClass
  | .grammar _ => ("defcalgrammar", .topLevel)
  | .port _ => ("port", .calibration)
  | .frame .. => ("frame", .calibration)
  | .waveform .. => ("waveform", .calibration)
  | .declare .. => ("declaration", .anywhere)
  | .input .. => ("input", .topLevel)
  | .output .. => ("output", .topLevel)
  | .subroutine .. => ("def", .topLevel)
  | .defcal .. => ("defcal", .topLevel)
  | .cal _ => ("cal", .topLevel)
  | .gate .. => ("gate call", .anywhere)
  | .expr _ => ("expression", .anywhere)
  | .assign .. => ("assignment", .anywhere)
  | .ret _ => ("return", .ret)
  | .forLoop .. => ("for", .anywhere)
  | .whileLoop .. => ("while", .anywhere)
  | .branch .. => ("if", .anywhere)
  | .delay .. => ("delay", .calibration)
  | .play .. => ("play", .calibration)
  | .capture .. => ("capture", .calibration)
  | .barrier .. => ("barrier", .anywhere)
  | .update op .. => (op.name, .calibration)

/-- The best overload for a call on some qubits: highest score, the first of equals. -/
def bestOverload (os : List Overload) (called : List (Option Nat)) : Option Overload :=
  let pick (best : Option (Nat × Overload)) (o : Overload) :=
    match matchScore o.qubits called, best with
    | some s, none => some (s, o)
    | some s, some (b, bo) => if s > b then some (s, o) else some (b, bo)
    | none, _ => best
  (os.foldl pick none).map (·.2)

/-- Resolves a gate call to a defcal overload and checks its arguments. -/
def checkGate (name : Ident) (args : List Expr) (qubits : List Qubit) (range : TextRange) :
    CheckM StmtKind := do
  let args ← resolveExprs args
  let qubits ← expectQubits qubits
  let some os := (← get).overloadsOf name.name | fail (.undeclared name.name) range
  let sameArity := os.filter (·.signature.arity == args.length)
  if sameArity.isEmpty then
    fail (.arity name.name ((os.head?.map (·.signature.arity)).getD 0) args.length) range
  match bestOverload sameArity (qubits.map Qubit.hardwareIndex?) with
  | none => fail (.undeclared (name.name ++ " " ++ Qubit.joined qubits)) range
  | some o =>
    checkArguments name.name o.signature args range
    pure (.gate { name with symbol := some o.symbol } args qubits)

mutual
/-- Analyzes one statement: numbers it, checks that it may stand where it is, and analyzes its
kind. -/
def checkStmt : Stmt → CheckM Stmt
  | .mk _ range dur kind => do
    let id ← takeId
    let (keyword, cls) := placement kind
    let t := (← get).table
    if !t.allows cls then fail (.illegalPlacement keyword t.state.enclosing) range
    pure (.mk id range dur (← checkKind range kind))

/-- Analyzes a statement's kind: binds what it declares, resolves what it uses and analyzes its
blocks. -/
def checkKind (range : TextRange) : StmtKind → CheckM StmtKind
  | .grammar g => pure (.grammar g)
  | .port n => do pure (.port (← declareIdent n .port))
  | .frame n p f ph => do
    let p ← expectType p .port
    let f ← resolveExpr f
    let ph ← resolveExpr ph
    let n ← declareIdent n .frame
    pure (.frame n p f ph)
  | .waveform n v ti => do
    let (v, ty) ← typed v
    checkAssignable n.name ty .waveform range
    pure (.waveform (← declareIdent n .waveform) v ti)
  | .declare n ty init => do
    let init ← match init with
      | some e => do
        let (e, ety) ← typed e
        checkAssignable n.name ety ty range
        pure (some e)
      | none => pure none
    pure (.declare (← declareIdent n (SymbolKind.ofType ty)) ty init)
  | .input n ty => do pure (.input (← declareIdent n (SymbolKind.ofType ty)) ty)
  | .output n ty => do pure (.output (← declareIdent n (SymbolKind.ofType ty)) ty)
  | .subroutine n ps ret body => do
    let n ← declareIdent n (.subroutine (signatureOf ps ret))
    let (ps, body) ← withScope .subroutine range do
      let ps ← declareParams ps
      let body ← checkBlock body
      pure (ps, body)
    pure (.subroutine n ps ret body)
  | .defcal n ps qs ret body => do
    let sig := signatureOf ps ret
    let c ← get
    let (sym, t) ← match c.table.declare (mangleDefcal n.name ps.length qs) (.defcal sig) with
      | .ok r => pure r
      | .error _ => fail (.duplicate ("defcal " ++ n.name ++ " " ++ Qubit.joined qs)) range
    let o : Overload := ⟨qs.map Qubit.hardwareIndex?, sym, sig⟩
    set (({ c with table := t } : Checker).record n.name o)
    let (ps, qs, body) ← withScope .defcal range do
      let ps ← declareParams ps
      let qs ← declareQubits qs
      let body ← checkBlock body
      pure (ps, qs, body)
    pure (.defcal { n with symbol := some sym } ps qs ret body)
  | .cal body => do
    modify fun c => { c with table := c.table.enterCalibration }
    let body ← checkBlock body
    let c ← get
    match c.table.leaveCalibration with
    | .ok t => set { c with table := t }
    | .error _ => fail .scopeUnderflow range
    pure (.cal body)
  | .gate n args qs => checkGate n args qs range
  | .expr e => do pure (.expr (← resolveExpr e))
  | .assign target op v => do
    let (target, tty) ← expectVariable target
    let (v, vty) ← typed v
    checkAssignable target.name vty tty range
    pure (.assign target op v)
  | .ret v => do
    match v with
    | some e => pure (.ret (some (← resolveExpr e)))
    | none => pure (.ret none)
  | .forLoop var ty it body => do
    let it ← match it with
      | .range start step stop => do
        let start ← resolveExpr start
        let step ← match step with
          | some e => do pure (some (← resolveExpr e))
          | none => pure none
        let stop ← resolveExpr stop
        pure (Iteration.range start step stop)
      | .set values => do pure (.set (← resolveExprs values))
    let (var, body) ← withScope .local range do
      let var ← declareIdent var (.classical ty)
      let body ← checkBlock body
      pure (var, body)
    pure (.forLoop var ty it body)
  | .whileLoop c body => do
    let c ← resolveExpr c
    let body ← withScope .local range (checkBlock body)
    pure (.whileLoop c body)
  | .branch c thenB elseB => do
    let c ← resolveExpr c
    let thenB ← withScope .local range (checkBlock thenB)
    let elseB ← match elseB with
      | some b => do pure (some (← withScope .local range (checkBlock b)))
      | none => pure none
    pure (.branch c thenB elseB)
  | .delay d frames => do
    let (d, ty) ← typed d
    checkAssignable "delay" ty (.duration false) range
    pure (.delay d (← frames.mapM (expectType · .frame)))
  | .play f w => do
    let f ← expectType f .frame
    let (w, ty) ← typed w
    checkAssignable (placement (.play f w)).1 ty .waveform range
    pure (.play f w)
  | .capture f w => do
    let f ← expectType f .frame
    let (w, ty) ← typed w
    checkAssignable (placement (.capture f w)).1 ty .waveform range
    pure (.capture f w)
  | .barrier frames sync => do
    match frames with
    | some fs => pure (.barrier (some (← fs.mapM (expectType · .frame))) sync)
    | none => pure (.barrier none sync)
  | .update op f v => do
    let f ← expectType f .frame
    pure (.update op f (← resolveExpr v))

/-- Analyzes a block in order. -/
def checkBlock : List Stmt → CheckM (List Stmt)
  | [] => pure []
  | s :: rest => do
    let s ← checkStmt s
    let rest ← checkBlock rest
    pure (s :: rest)
end

/-- The analyzer's state before a program: the predefined constants and the registry's
generators bound in the global scope. Two generators of one name, or one named like a
constant, are a duplicate declaration at the empty range. -/
def initial (registry : Registry) : Except SemanticError Checker := do
  let mut t := SymbolTable.initial
  for g in registry.generators do
    match t.declare g.name (.generator g.signature) with
    | .ok (_, t') => t := t'
    | .error e => throw ⟨ErrorCause.ofSymbolError g.name e, {}⟩
  pure ⟨t, [], 0⟩

end Checker

/-- The result of analysis: the program with numbered statements and resolved identifiers,
and the scope table with every symbol declared. -/
structure Analyzed where
  program : Program
  table : SymbolTable
  deriving Inhabited

/-- Analyzes a program with the generators of a registry. -/
def Program.analyze (registry : Registry) (p : Program) : Except SemanticError Analyzed := do
  let c ← Checker.initial registry
  let (p, c) ← (Checker.checkBlock p).run c
  pure ⟨p, c.table⟩

end PulseCompiler
