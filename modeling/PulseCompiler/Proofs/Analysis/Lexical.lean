import PulseCompiler.Analysis.Overload
import PulseCompiler.Program.Builtin
import PulseCompiler.Generator
set_option autoImplicit false

/-!
# Lexical scoping

The rule by which the names of an analyzed program are read, stated on the program alone.

A lexical environment (`Lexical`) holds the open scopes, innermost first, each binding names to
declarations, the latest binding first. Declarations are numbered in the order they are made:
the predefined constants, then the registry's generators, then the program's declarations as
they are read. A name refers to its innermost declaration (`Lexical.lookup`).

A statement follows the rule (`Stmt.lexical`) when every name it looks up refers to the
innermost declaration of that name before the statement, every name it declares refers to the
new declaration, and a gate call names a defcal declared before it. A `def`'s name is bound
before its body; definitions, loops and each branch of an `if` open a scope for their bodies, in
which parameters, named qubits and loop variables are bound; a `cal` block opens none.
`Stmt.lexical` gives the environment after the statement, or `none` where an identifier does not
follow the rule.

Analysis writes symbols and statement numbers and nothing else: `Stmt.erase` forgets them.

Main statement: a block that follows the rule numbers every identifier in it, at any depth,
below the number of declarations made by its end (`Stmt.blockLexical_numbers`).
-/

namespace PulseCompiler

/-! ### Identifiers of statements -/

namespace StmtKind

/-- The identifiers a statement binds: the name it declares, the parameters and named qubits of
a definition, the variable of a loop. -/
def binders : StmtKind → List Ident
  | subroutine n ps .. => n :: ps.map Param.name
  | defcal n ps qs .. => n :: (ps.map Param.name ++ qs.filterMap Qubit.name?)
  | forLoop var .. => [var]
  | k => k.declared.toList

/-- Every identifier of a statement, not counting nested blocks. -/
def idents (k : StmtKind) : List Ident := k.binders ++ k.references

/-- The identifiers a statement looks up in the open scopes: all it refers to, but for the name
of a gate call, which names a defcal overload instead. -/
def lookups (k : StmtKind) : List Ident :=
  match k with
  | gate .. => k.references.tail
  | _ => k.references

end StmtKind

/-- Every identifier of a program, at any depth. -/
def Program.idents (p : Program) : List Ident := (Stmt.walkList p).flatMap (·.kind.idents)

/-! ### Forgetting annotations -/

/-- An identifier without its symbol. -/
def Ident.erase (i : Ident) : Ident := { i with symbol := none }

mutual
/-- An expression without the symbols of its identifiers. -/
def Expr.erase : Expr → Expr
  | .lit l => .lit l
  | .ident i => .ident i.erase
  | .binary op l r => .binary op (Expr.erase l) (Expr.erase r)
  | .unary op e => .unary op (Expr.erase e)
  | .call n args => .call n.erase (Expr.eraseList args)
  | .array items => .array (Expr.eraseList items)

/-- Expressions without the symbols of their identifiers. -/
def Expr.eraseList : List Expr → List Expr
  | [] => []
  | e :: rest => Expr.erase e :: Expr.eraseList rest
end

/-- A parameter without its symbol. -/
def Param.erase (p : Param) : Param := { p with name := p.name.erase }

/-- A qubit operand without its symbol. -/
def Qubit.erase : Qubit → Qubit
  | .hardware n => .hardware n
  | .named i => .named i.erase

/-- What a loop runs over, without symbols. -/
def Iteration.erase : Iteration → Iteration
  | .range start step stop => .range start.erase (step.map Expr.erase) stop.erase
  | .set values => .set (Expr.eraseList values)

mutual
/-- A statement without its number and the symbols of its identifiers, at any depth. -/
def Stmt.erase : Stmt → Stmt
  | .mk _ range dur k => .mk 0 range dur (StmtKind.erase k)

/-- A statement kind without symbols, at any depth. -/
def StmtKind.erase : StmtKind → StmtKind
  | .grammar g => .grammar g
  | .port n => .port n.erase
  | .frame n p f ph => .frame n.erase p.erase f.erase ph.erase
  | .waveform n v ti => .waveform n.erase v.erase ti
  | .declare n ty init => .declare n.erase ty (init.map Expr.erase)
  | .input n ty => .input n.erase ty
  | .output n ty => .output n.erase ty
  | .subroutine n ps ret body =>
    .subroutine n.erase (ps.map Param.erase) ret (Stmt.eraseList body)
  | .defcal n ps qs ret body =>
    .defcal n.erase (ps.map Param.erase) (qs.map Qubit.erase) ret (Stmt.eraseList body)
  | .cal body => .cal (Stmt.eraseList body)
  | .gate n args qs => .gate n.erase (Expr.eraseList args) (qs.map Qubit.erase)
  | .expr e => .expr e.erase
  | .assign target op v => .assign target.erase op v.erase
  | .ret v => .ret (v.map Expr.erase)
  | .forLoop var ty it body => .forLoop var.erase ty it.erase (Stmt.eraseList body)
  | .whileLoop c body => .whileLoop c.erase (Stmt.eraseList body)
  | .branch c t (some e) => .branch c.erase (Stmt.eraseList t) (some (Stmt.eraseList e))
  | .branch c t none => .branch c.erase (Stmt.eraseList t) none
  | .delay d frames => .delay d.erase (frames.map Ident.erase)
  | .play f w => .play f.erase w.erase
  | .capture f w => .capture f.erase w.erase
  | .barrier frames sync => .barrier (frames.map (·.map Ident.erase)) sync
  | .update op f v => .update op f.erase v.erase

/-- A block without statement numbers and symbols. -/
def Stmt.eraseList : List Stmt → List Stmt
  | [] => []
  | s :: rest => Stmt.erase s :: Stmt.eraseList rest
end

/-! ### The lexical environment -/

/-- The open scopes, innermost first, each binding names to declarations, the latest binding
first; the number of declarations made, which is the number of the next one; and the defcals
declared, under their plain names. -/
structure Lexical where
  scopes : List (List (String × SymbolId))
  next : Nat
  defcals : List (String × SymbolId)
  deriving DecidableEq

namespace Lexical

/-- The innermost declaration of a name: its latest binding in the innermost scope that binds
it. -/
def lookup (env : Lexical) (name : String) : Option SymbolId :=
  env.scopes.findSome? (·.lookup name)

/-- Binds a name in the innermost scope to the next declaration. -/
def bind (env : Lexical) (name : String) : Lexical :=
  { env with scopes := env.scopes.modifyHead ((name, env.next) :: ·), next := env.next + 1 }

/-- Opens a scope. -/
def enter (env : Lexical) : Lexical := { env with scopes := [] :: env.scopes }

/-- Closes the innermost scope. -/
def leave (env : Lexical) : Lexical := { env with scopes := env.scopes.tail }

/-- An identifier refers to the innermost declaration of its name. -/
def refers (env : Lexical) (i : Ident) : Bool := i.symbol.isSome && i.symbol == env.lookup i.name

/-- Binds a declared identifier's name; the identifier must refer to the new declaration. -/
def declare (env : Lexical) (i : Ident) : Option Lexical :=
  if i.symbol == some env.next then some (env.bind i.name) else none

/-- Binds identifiers in order. -/
def declareAll (env : Lexical) (is : List Ident) : Option Lexical := is.foldlM declare env

/-- Binds a defcal under its mangled name, which its identifier must refer to, and records it
under its plain name. -/
def declareDefcal (env : Lexical) (n : Ident) (arity : Nat) (qs : List Qubit) :
    Option Lexical :=
  if n.symbol == some env.next then
    some { env.bind (mangleDefcal n.name arity qs) with defcals := (n.name, env.next) :: env.defcals }
  else none

/-- One scope, the global one, and no declarations. -/
def empty : Lexical := ⟨[[]], 0, []⟩

/-- The environment before a program: the predefined constants, then the registry's generators,
bound in the global scope. -/
def initial (registry : Registry) : Lexical :=
  (builtinConstants.map Prod.fst ++ registry.generators.map Generator.name).foldl bind empty

end Lexical

mutual
/-- The environment after a statement whose identifiers follow the lexical rule in `env`: what
it looks up refers to declarations before it, and then its kind binds names and reads its
blocks. `none` when an identifier does not follow the rule. -/
def Stmt.lexical (env : Lexical) : Stmt → Option Lexical
  | .mk _ _ _ k => if k.lookups.all env.refers then StmtKind.lexical env k else none

/-- The environment after the names a statement kind binds and the blocks it reads. -/
def StmtKind.lexical (env : Lexical) : StmtKind → Option Lexical
  | .port n | .frame n .. | .waveform n .. | .declare n .. | .input n _ | .output n _ =>
    env.declare n
  | .subroutine n ps _ body =>
    (env.declare n).bind fun named =>
      (named.enter.declareAll (ps.map Param.name)).bind fun inner =>
        (Stmt.blockLexical inner body).map Lexical.leave
  | .defcal n ps qs _ body =>
    (env.declareDefcal n ps.length qs).bind fun named =>
      (named.enter.declareAll (ps.map Param.name ++ qs.filterMap Qubit.name?)).bind fun inner =>
        (Stmt.blockLexical inner body).map Lexical.leave
  | .cal body => Stmt.blockLexical env body
  | .forLoop var _ _ body =>
    (env.enter.declare var).bind fun inner => (Stmt.blockLexical inner body).map Lexical.leave
  | .whileLoop _ body => (Stmt.blockLexical env.enter body).map Lexical.leave
  | .branch _ t (some e) =>
    ((Stmt.blockLexical env.enter t).map Lexical.leave).bind fun env =>
      (Stmt.blockLexical env.enter e).map Lexical.leave
  | .branch _ t none => (Stmt.blockLexical env.enter t).map Lexical.leave
  | .gate n .. =>
    if n.symbol.any fun s => env.defcals.contains (n.name, s) then some env else none
  | _ => some env

/-- The environment after a block whose statements all follow the lexical rule. -/
def Stmt.blockLexical (env : Lexical) : List Stmt → Option Lexical
  | [] => some env
  | s :: rest => (Stmt.lexical env s).bind fun env => Stmt.blockLexical env rest
end

/-- After the six constants, a global `x` is declaration 6 and a loop variable `x` declaration 7:
the loop's values read the global, its body the loop variable. -/
example : (Stmt.blockLexical (Lexical.initial Registry.empty)
    [.ofKind (.declare ⟨"x", {}, some 6⟩ (.int none false) none),
     .ofKind (.forLoop ⟨"x", {}, some 7⟩ (.int none false) (.set [.ident ⟨"x", {}, some 6⟩])
       [.ofKind (.expr (.ident ⟨"x", {}, some 7⟩))])]).isSome := by decide

example : (Stmt.blockLexical (Lexical.initial Registry.empty)
    [.ofKind (.declare ⟨"x", {}, some 6⟩ (.int none false) none),
     .ofKind (.forLoop ⟨"x", {}, some 7⟩ (.int none false) (.set [.ident ⟨"x", {}, some 6⟩])
       [.ofKind (.expr (.ident ⟨"x", {}, some 6⟩))])]).isNone := by decide


/-! ### Operations on the environment -/

namespace Lexical

variable {env env' : Lexical} {i n : Ident} {name : String}

@[simp] theorem bind_next (env : Lexical) (name : String) : (env.bind name).next = env.next + 1 :=
  rfl

@[simp] theorem enter_next (env : Lexical) : env.enter.next = env.next := rfl

@[simp] theorem leave_next (env : Lexical) : env.leave.next = env.next := rfl

@[simp] theorem enter_scopes (env : Lexical) : env.enter.scopes = [] :: env.scopes := rfl

@[simp] theorem leave_scopes (env : Lexical) : env.leave.scopes = env.scopes.tail := rfl

theorem refers_iff : env.refers i = true ↔ ∃ s, i.symbol = some s ∧ env.lookup i.name = some s := by
  unfold refers
  cases i.symbol with
  | none => simp
  | some s =>
    simp only [Option.isSome_some, Bool.true_and, beq_iff_eq, Option.some.injEq, exists_eq_left']
    exact eq_comm

theorem declare_eq_some_iff :
    env.declare i = some env' ↔ i.symbol = some env.next ∧ env' = env.bind i.name := by
  unfold declare
  by_cases h : i.symbol = some env.next
  · simp only [h, BEq.rfl, if_true, Option.some.injEq, true_and]
    exact eq_comm
  · simp [h]

theorem declareDefcal_eq_some_iff {arity : Nat} {qs : List Qubit} :
    env.declareDefcal n arity qs = some env' ↔ n.symbol = some env.next ∧
      env' = { env.bind (mangleDefcal n.name arity qs) with
        defcals := (n.name, env.next) :: env.defcals } := by
  unfold declareDefcal
  by_cases h : n.symbol = some env.next
  · simp only [h, BEq.rfl, if_true, Option.some.injEq, true_and]
    exact eq_comm
  · simp [h]

theorem declareDefcal_congr (env : Lexical) (n : Ident) {a a' : Nat} {qs qs' : List Qubit}
    (h : mangleDefcal n.name a qs = mangleDefcal n.name a' qs') :
    env.declareDefcal n a qs = env.declareDefcal n a' qs' := by
  unfold declareDefcal
  rw [h]

@[simp] theorem declareAll_nil (env : Lexical) : env.declareAll [] = some env := rfl

theorem declareAll_cons (env : Lexical) (i : Ident) (is : List Ident) :
    env.declareAll (i :: is) = (env.declare i).bind (·.declareAll is) := rfl

theorem declareAll_append (env : Lexical) (is js : List Ident) :
    env.declareAll (is ++ js) = (env.declareAll is).bind (·.declareAll js) := by
  simp only [declareAll, List.foldlM_append]
  rfl

/-! ### Numbering -/

/-- Every declaration an environment binds or records as a defcal is numbered below the next
one. -/
structure Bounded (env : Lexical) : Prop where
  scopes : ∀ scope ∈ env.scopes, ∀ b ∈ scope, b.2 < env.next
  defcals : ∀ d ∈ env.defcals, d.2 < env.next

theorem empty_bounded : empty.Bounded where
  scopes := by simp [empty]
  defcals := by simp [empty]

namespace Bounded

theorem bind (h : env.Bounded) (name : String) : (env.bind name).Bounded where
  scopes := by
    intro scope hscope b hb
    obtain ⟨scopes, next, defcals⟩ := env
    cases scopes with
    | nil => simp [Lexical.bind] at hscope
    | cons first rest =>
      simp only [Lexical.bind, List.modifyHead_cons, List.mem_cons] at hscope ⊢
      rcases hscope with rfl | hscope
      · rcases List.mem_cons.1 hb with rfl | hb
        · exact Nat.lt_succ_self _
        · exact Nat.lt_succ_of_lt (h.scopes first List.mem_cons_self b hb)
      · exact Nat.lt_succ_of_lt (h.scopes scope (List.mem_cons_of_mem _ hscope) b hb)
  defcals d hd := Nat.lt_succ_of_lt (h.defcals d hd)

theorem enter (h : env.Bounded) : env.enter.Bounded where
  scopes := by
    intro scope hscope b hb
    rcases List.mem_cons.1 hscope with rfl | hscope
    · simp at hb
    · exact h.scopes scope hscope b hb
  defcals := h.defcals

theorem leave (h : env.Bounded) : env.leave.Bounded where
  scopes scope hscope := h.scopes scope (List.mem_of_mem_tail hscope)
  defcals := h.defcals

theorem foldl_bind (h : env.Bounded) (names : List String) :
    (names.foldl Lexical.bind env).Bounded := by
  induction names generalizing env with
  | nil => exact h
  | cons name names ih => exact ih (h.bind name)

theorem lookup (h : env.Bounded) {s : SymbolId} (found : env.lookup name = some s) :
    s < env.next := by
  obtain ⟨scope, hscope, bound⟩ := List.exists_of_findSome?_eq_some found
  obtain ⟨before, after, rfl, -⟩ := List.lookup_eq_some_iff.1 bound
  exact h.scopes _ hscope (name, s) (by simp)

theorem refers (h : env.Bounded) (hi : env.refers i = true) :
    ∃ s, i.symbol = some s ∧ s < env.next := by
  obtain ⟨s, hs, found⟩ := refers_iff.1 hi
  exact ⟨s, hs, h.lookup found⟩

end Bounded

theorem initial_bounded (registry : Registry) : (initial registry).Bounded :=
  empty_bounded.foldl_bind _

/-- Following the lexical rule from `env` to `env'` keeps the environment bounded, only adds
declarations, and numbers the identifiers `is` among them. -/
structure Numbers (env env' : Lexical) (is : List Ident) : Prop where
  bounded : env'.Bounded
  next_le : env.next ≤ env'.next
  numbered : ∀ i ∈ is, ∃ s, i.symbol = some s ∧ s < env'.next

namespace Numbers

variable {env₁ env₂ env₃ : Lexical} {is js : List Ident}

theorem trans (h₁ : Numbers env₁ env₂ is) (h₂ : Numbers env₂ env₃ js) :
    Numbers env₁ env₃ (is ++ js) where
  bounded := h₂.bounded
  next_le := Nat.le_trans h₁.next_le h₂.next_le
  numbered i hi := by
    rcases List.mem_append.1 hi with hi | hi
    · obtain ⟨s, hs, lt⟩ := h₁.numbered i hi
      exact ⟨s, hs, Nat.lt_of_lt_of_le lt h₂.next_le⟩
    · exact h₂.numbered i hi

theorem leave (h : Numbers env env' is) : Numbers env env'.leave is :=
  ⟨h.bounded.leave, h.next_le, h.numbered⟩

theorem of_enter (h : Numbers env.enter env' is) : Numbers env env' is :=
  ⟨h.bounded, h.next_le, h.numbered⟩

theorem subset (h : Numbers env env' is) (sub : js ⊆ is) : Numbers env env' js :=
  ⟨h.bounded, h.next_le, fun i hi => h.numbered i (sub hi)⟩

/-- Identifiers that refer to declarations are numbered among them. -/
theorem lookups (b : env.Bounded) (h : is.all env.refers = true) : Numbers env env is :=
  ⟨b, Nat.le_refl _, fun _ hi => b.refers (List.all_eq_true.1 h _ hi)⟩

/-- Identifiers that referred to declarations before a step are numbered after it too. -/
theorem append_lookups (b : env.Bounded) (h : Numbers env env' is)
    (refers : js.all env.refers = true) : Numbers env env' (is ++ js) := by
  refine ⟨h.bounded, h.next_le, fun i hi => ?_⟩
  rcases List.mem_append.1 hi with hi | hi
  · exact h.numbered i hi
  · obtain ⟨s, hs, lt⟩ := b.refers (List.all_eq_true.1 refers i hi)
    exact ⟨s, hs, Nat.lt_of_lt_of_le lt h.next_le⟩

theorem declare (b : env.Bounded) (h : env.declare i = some env') : Numbers env env' [i] := by
  obtain ⟨numbered, rfl⟩ := declare_eq_some_iff.1 h
  refine ⟨b.bind i.name, Nat.le_succ _, fun j hj => ?_⟩
  rw [List.mem_singleton.1 hj]
  exact ⟨env.next, numbered, Nat.lt_succ_self _⟩

theorem declareAll :
    ∀ {env env' : Lexical} {is : List Ident}, env.Bounded → env.declareAll is = some env' →
      Numbers env env' is
  | _, _, [], b, h => by
    cases h
    exact ⟨b, Nat.le_refl _, by simp⟩
  | env, env', i :: is, b, h => by
    rw [declareAll_cons, Option.bind_eq_some_iff] at h
    obtain ⟨named, hnamed, rest⟩ := h
    have first := Numbers.declare b hnamed
    exact first.trans (declareAll first.bounded rest)

theorem declareDefcal {arity : Nat} {qs : List Qubit} (b : env.Bounded)
    (h : env.declareDefcal n arity qs = some env') : Numbers env env' [n] := by
  obtain ⟨numbered, rfl⟩ := declareDefcal_eq_some_iff.1 h
  have bound := b.bind (mangleDefcal n.name arity qs)
  refine ⟨⟨bound.scopes, fun d hd => ?_⟩, Nat.le_succ _, fun j hj => ?_⟩
  · rcases List.mem_cons.1 hd with rfl | hd
    · exact Nat.lt_succ_self _
    · exact bound.defcals d hd
  · rw [List.mem_singleton.1 hj]
    exact ⟨env.next, numbered, Nat.lt_succ_self _⟩

end Numbers

end Lexical

/-- A gate call that follows the rule names a defcal declared before it. -/
theorem Lexical.Bounded.gate_numbered {env : Lexical} (b : env.Bounded) {n : Ident}
    (h : (n.symbol.any fun s => env.defcals.contains (n.name, s)) = true) :
    ∃ s, n.symbol = some s ∧ s < env.next := by
  cases hn : n.symbol with
  | none => simp [hn] at h
  | some s =>
    rw [hn, Option.any_some, List.contains_iff_mem] at h
    exact ⟨s, rfl, b.defcals _ h⟩

mutual

/-- A statement that follows the lexical rule numbers every identifier in it, at any depth,
among the declarations made by its end. -/
theorem Stmt.lexical_numbers {env : Lexical} (b : env.Bounded) :
    (s : Stmt) → ∀ {env'}, Stmt.lexical env s = some env' →
      env.Numbers env' (s.walk.flatMap (·.kind.idents))
  | .mk id range dur k, env', h => by
    have walk : (Stmt.mk id range dur k).walk = Stmt.mk id range dur k :: k.walkBlocks := rfl
    rw [walk, List.flatMap_cons]
    simp only [Stmt.lexical] at h
    split at h
    · rename_i refers
      exact StmtKind.lexical_numbers b k refers h
    · cases h

theorem StmtKind.lexical_numbers {env : Lexical} (b : env.Bounded) :
    (k : StmtKind) → ∀ {env'}, k.lookups.all env.refers = true → k.lexical env = some env' →
      env.Numbers env' (k.idents ++ k.walkBlocks.flatMap (·.kind.idents))
  | .port _, _, refers, h | .frame .., _, refers, h | .waveform .., _, refers, h
  | .declare .., _, refers, h | .input .., _, refers, h | .output .., _, refers, h => by
    simpa only [StmtKind.idents, StmtKind.binders, StmtKind.declared, Option.toList,
      StmtKind.lookups, StmtKind.walkBlocks, List.flatMap_nil, List.append_nil] using
      (Lexical.Numbers.declare b h).append_lookups b refers
  | .grammar _, _, refers, h | .expr _, _, refers, h | .assign .., _, refers, h
  | .ret _, _, refers, h | .delay .., _, refers, h | .play .., _, refers, h
  | .capture .., _, refers, h | .barrier .., _, refers, h | .update .., _, refers, h => by
    obtain rfl := Option.some.inj h
    simpa only [StmtKind.idents, StmtKind.binders, StmtKind.declared, Option.toList,
      StmtKind.lookups, StmtKind.walkBlocks, List.flatMap_nil, List.append_nil,
      List.nil_append] using Lexical.Numbers.lookups b refers
  | .gate n args qs, _, refers, h => by
    simp only [StmtKind.lexical] at h
    split at h
    · rename_i named
      obtain rfl := Option.some.inj h
      obtain ⟨s, hs, lt⟩ := b.gate_numbered named
      have name : env.Numbers env [n] := ⟨b, Nat.le_refl _, by simpa using ⟨s, hs, lt⟩⟩
      simpa only [StmtKind.idents, StmtKind.binders, StmtKind.declared, Option.toList,
        StmtKind.references, StmtKind.lookups, StmtKind.walkBlocks, List.tail_cons,
        List.flatMap_nil, List.append_nil, List.nil_append, List.singleton_append] using
        name.append_lookups b refers
    · cases h
  | .subroutine n ps ret body, _, _, h => by
    simp only [StmtKind.lexical, Option.bind_eq_some_iff, Option.map_eq_some_iff] at h
    obtain ⟨named, hnamed, inner, hinner, last, hbody, rfl⟩ := h
    have declared := Lexical.Numbers.declare b hnamed
    have params := (Lexical.Numbers.declareAll declared.bounded.enter hinner).of_enter
    have nested := Stmt.blockLexical_numbers params.bounded body hbody
    simpa only [StmtKind.idents, StmtKind.binders, StmtKind.references, StmtKind.walkBlocks,
      List.append_nil, List.cons_append, List.nil_append, List.append_assoc] using
      (declared.trans (params.trans nested)).leave
  | .defcal n ps qs ret body, _, _, h => by
    simp only [StmtKind.lexical, Option.bind_eq_some_iff, Option.map_eq_some_iff] at h
    obtain ⟨named, hnamed, inner, hinner, last, hbody, rfl⟩ := h
    have declared := Lexical.Numbers.declareDefcal b hnamed
    have params := (Lexical.Numbers.declareAll declared.bounded.enter hinner).of_enter
    have nested := Stmt.blockLexical_numbers params.bounded body hbody
    simpa only [StmtKind.idents, StmtKind.binders, StmtKind.references, StmtKind.walkBlocks,
      List.append_nil, List.cons_append, List.nil_append, List.append_assoc] using
      (declared.trans (params.trans nested)).leave
  | .cal body, _, _, h => by
    simpa only [StmtKind.idents, StmtKind.binders, StmtKind.declared, StmtKind.references,
      StmtKind.walkBlocks, Option.toList, List.nil_append] using
      Stmt.blockLexical_numbers b body h
  | .forLoop var ty it body, _, refers, h => by
    simp only [StmtKind.lexical, Option.bind_eq_some_iff, Option.map_eq_some_iff] at h
    obtain ⟨inner, hinner, last, hbody, rfl⟩ := h
    have declared := (Lexical.Numbers.declare b.enter hinner).of_enter
    have nested := Stmt.blockLexical_numbers declared.bounded body hbody
    refine (((declared.trans nested).leave).append_lookups b refers).subset ?_
    intro i hi
    simp only [StmtKind.idents, StmtKind.binders, StmtKind.walkBlocks, List.mem_append] at hi ⊢
    rcases hi with (hi | hi) | hi
    · exact Or.inl (Or.inl hi)
    · exact Or.inr hi
    · exact Or.inl (Or.inr hi)
  | .whileLoop c body, _, refers, h => by
    simp only [StmtKind.lexical, Option.map_eq_some_iff] at h
    obtain ⟨last, hbody, rfl⟩ := h
    have nested := (Stmt.blockLexical_numbers b.enter body hbody).of_enter
    have idents : (StmtKind.whileLoop c body).idents = (StmtKind.whileLoop c body).lookups := rfl
    have walk : (StmtKind.whileLoop c body).walkBlocks = Stmt.walkList body := rfl
    rw [idents, walk]
    exact (Lexical.Numbers.lookups b refers).trans nested.leave
  | .branch c t (some e), _, refers, h => by
    simp only [StmtKind.lexical, Option.bind_eq_some_iff, Option.map_eq_some_iff] at h
    obtain ⟨_, ⟨thenEnd, hthen, rfl⟩, elseEnd, helse, rfl⟩ := h
    have first := (Stmt.blockLexical_numbers b.enter t hthen).of_enter
    have second := (Stmt.blockLexical_numbers first.bounded.leave.enter e helse).of_enter
    have idents : (StmtKind.branch c t (some e)).idents = (StmtKind.branch c t (some e)).lookups :=
      rfl
    have walk : (StmtKind.branch c t (some e)).walkBlocks = Stmt.walkList t ++ Stmt.walkList e :=
      rfl
    rw [idents, walk, List.flatMap_append]
    exact (Lexical.Numbers.lookups b refers).trans (first.leave.trans second.leave)
  | .branch c t none, _, refers, h => by
    simp only [StmtKind.lexical, Option.map_eq_some_iff] at h
    obtain ⟨last, hbody, rfl⟩ := h
    have nested := (Stmt.blockLexical_numbers b.enter t hbody).of_enter
    have idents : (StmtKind.branch c t none).idents = (StmtKind.branch c t none).lookups := rfl
    have walk : (StmtKind.branch c t none).walkBlocks = Stmt.walkList t := List.append_nil _
    rw [idents, walk]
    exact (Lexical.Numbers.lookups b refers).trans nested.leave

theorem Stmt.blockLexical_numbers {env : Lexical} (b : env.Bounded) :
    (ss : List Stmt) → ∀ {env'}, Stmt.blockLexical env ss = some env' →
      env.Numbers env' ((Stmt.walkList ss).flatMap (·.kind.idents))
  | [], _, h => by
    cases h
    exact ⟨b, Nat.le_refl _, by simp [Stmt.walkList]⟩
  | s :: rest, _, h => by
    simp only [Stmt.blockLexical, Option.bind_eq_some_iff] at h
    obtain ⟨mid, hs, hrest⟩ := h
    have first := Stmt.lexical_numbers b s hs
    have walk : Stmt.walkList (s :: rest) = s.walk ++ Stmt.walkList rest := rfl
    rw [walk, List.flatMap_append]
    exact first.trans (Stmt.blockLexical_numbers first.bounded rest hrest)

end

end PulseCompiler
