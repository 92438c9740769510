import PulseCompiler.Program.Printer
set_option autoImplicit false

/-!
# Dead-code elimination

Splitting leaves each core's program with declarations nothing on that core uses. A pass of
elimination removes, innermost first:

* declarations of ports, frames, waveforms, inputs, values, subroutines and defcals that no
  statement of the program refers to, except a value whose initializer calls a subroutine;
* calls of defcals that are not in the program;
* `cal` blocks, loops and `if`s left with nothing in them.

What a pass removes is named in the order it goes. Removing one declaration can leave another
unused, so passes repeat until one removes nothing, or up to a bound.
-/

namespace PulseCompiler

/-- How many passes elimination may run. -/
inductive EliminationPolicy where
  /-- Until a pass removes nothing. -/
  | fixedPoint
  /-- At most this many passes. -/
  | bounded (passes : Nat)
  deriving Repr, DecidableEq, Inhabited

/-- What elimination did: how many passes ran, what was removed, and whether the last pass
removed nothing. -/
structure EliminationReport where
  passes : Nat := 0
  removed : List String := []
  converged : Bool := false
  deriving Repr, DecidableEq, Inhabited

/-- The symbols a program defines as defcals and subroutines, and those it refers to. -/
structure Usage where
  defcals : List SymbolId
  subroutines : List SymbolId
  referenced : List SymbolId

namespace Usage

/-- The usage of a program, from every statement at any depth. -/
def ofProgram (p : Program) : Usage :=
  let all := Stmt.walkList p
  { defcals := all.filterMap fun s =>
      match s.kind with
      | .defcal name .. => name.symbol
      | _ => none
    subroutines := all.filterMap fun s =>
      match s.kind with
      | .subroutine name .. => name.symbol
      | _ => none
    referenced := all.flatMap fun s => s.kind.references.filterMap (·.symbol) }

/-- Whether the name a statement declares is referred to; a statement that declares no bound
name counts as referred to. -/
def isReferenced (u : Usage) (k : StmtKind) : Bool :=
  match k.declared.bind (·.symbol) with
  | some s => u.referenced.contains s
  | none => true

/-- Whether an expression mentions a subroutine. -/
def callsSubroutine (u : Usage) (e : Expr) : Bool :=
  e.identifiers.any fun i =>
    match i.symbol with
    | some s => u.subroutines.contains s
    | none => false

/-- What a statement is removed as, if it is dead: the name of an unused declaration, or a
description of the call or empty block. -/
def removal (u : Usage) (k : StmtKind) : Option String :=
  let unreferenced : Option String :=
    match k.declared with
    | some i => if u.isReferenced k then none else some i.name
    | none => none
  match k with
  | .gate name _ qubits =>
    match name.symbol with
    | none => none
    | some s =>
      if u.defcals.contains s then none
      else some ("call `" ++ name.name ++ " " ++ Qubit.joined qubits ++ "`")
  | .port _ | .frame .. | .waveform .. | .input .. | .subroutine .. | .defcal .. => unreferenced
  | .declare _ _ init =>
    if (init.map u.callsSubroutine).getD false then none else unreferenced
  | .cal [] => some "empty `cal` block"
  | .forLoop _ _ _ [] => some "empty `for` loop"
  | .whileLoop _ [] => some "empty `while` loop"
  | .branch _ [] none | .branch _ [] (some []) => some "empty `if`"
  | _ => none

end Usage

mutual
/-- A statement after one pass, with what was removed from it, innermost first; `none` when
the statement itself goes. -/
def Stmt.prune (u : Usage) : Stmt → Option Stmt × List String
  | s@(.mk _ _ _ kind) =>
    let (k, inner) := StmtKind.prune u kind
    match u.removal k with
    | some what => (none, inner ++ [what])
    | none => (some (s.withKind k), inner)

/-- A statement kind with its blocks pruned, and what was removed from them. -/
def StmtKind.prune (u : Usage) : StmtKind → StmtKind × List String
  | .subroutine n ps r b =>
    let (b', rs) := Stmt.pruneList u b
    (.subroutine n ps r b', rs)
  | .defcal n ps qs r b =>
    let (b', rs) := Stmt.pruneList u b
    (.defcal n ps qs r b', rs)
  | .cal b =>
    let (b', rs) := Stmt.pruneList u b
    (.cal b', rs)
  | .forLoop v t it b =>
    let (b', rs) := Stmt.pruneList u b
    (.forLoop v t it b', rs)
  | .whileLoop c b =>
    let (b', rs) := Stmt.pruneList u b
    (.whileLoop c b', rs)
  | .branch c t e =>
    let (t', rs) := Stmt.pruneList u t
    match e with
    | some b =>
      let (b', rs') := Stmt.pruneList u b
      (.branch c t' (some b'), rs ++ rs')
    | none => (.branch c t' none, rs)
  | k => (k, [])

/-- A block after one pass, with what was removed from it, in order. -/
def Stmt.pruneList (u : Usage) : List Stmt → List Stmt × List String
  | [] => ([], [])
  | s :: rest =>
    let (kept, rs) := Stmt.prune u s
    let (rest', rs') := Stmt.pruneList u rest
    (match kept with
      | some t => t :: rest'
      | none => rest', rs ++ rs')
end

namespace Program

/-- One pass of elimination: the program without its dead statements, and what was removed. -/
def eliminateOnce (p : Program) : Program × List String :=
  Stmt.pruneList (Usage.ofProgram p) p

/-- Runs passes while the limit allows and the last pass removed something. -/
def eliminateLoop : Nat → Program × EliminationReport → Program × EliminationReport
  | 0, acc => acc
  | n + 1, (p, r) =>
    let (q, removed) := eliminateOnce p
    let r' := { r with passes := r.passes + 1 }
    if removed.isEmpty then (q, { r' with converged := true })
    else eliminateLoop n (q, { r' with removed := r.removed ++ removed })

/-- The number of statements of a program at any depth. -/
def size (p : Program) : Nat := (Stmt.walkList p).length

/-- Removes dead statements under a policy. A pass that removes something shrinks the
program, so a program of `n` statements converges within `n + 1` passes. -/
def removeUnused (policy : EliminationPolicy) (p : Program) : Program × EliminationReport :=
  let limit := match policy with
    | .fixedPoint => p.size + 1
    | .bounded n => n
  eliminateLoop limit (p, {})

end Program

end PulseCompiler
