import PulseCompiler.Setup.Config
import PulseCompiler.Analysis.Error
import PulseCompiler.Program.Stmt
import Std.Data.HashMap
set_option autoImplicit false

/-!
# Splitting a program across cores

The setup puts every port on a core, and a frame lives on its port's core. A program is
split into one program per core that one of its ports is on. The program of a core keeps:

* the ports and frames on that core, and plays, captures and frame updates on its frames;
* delays with the frames on that core among those they name (a delay naming none of them
  goes), and delays naming no frames;
* every barrier, its frame list narrowed to the frames on that core;
* calls that pass frames of that core, or no declared frames at all;
* blocks whose statements, once split, still do something on that core (defining values or
  returning does not count); a `cal` block that is left with any statement; and every
  subroutine, since calls to it stay on every core;
* everything else.

Frames that are not declared frames, such as defcal parameters, count as being on every
core. Statements keep their numbers, durations and barrier times, so each program can be
run again against the timeline of the whole program.
-/

namespace PulseCompiler

/-- The core of every declared port and frame, by symbol. -/
structure CoreAffinity where
  ports : Std.HashMap SymbolId Core := {}
  frames : Std.HashMap SymbolId Core := {}

namespace CoreAffinity

/-- Puts the ports declared in a program on their cores; the first port the setup does not
place is an error. Frames then follow their ports. -/
def ofProgram (setup : SetupConfig) (p : Program) : Except SemanticError CoreAffinity := do
  let all := Stmt.walkList p
  let ports ← all.foldlM (fun (acc : Std.HashMap SymbolId Core) s =>
    match s.kind with
    | .port name =>
      match setup.core? name.name with
      | none => .error ⟨.missingCore name.name, s.range⟩
      | some c =>
        match name.symbol with
        | some sym => .ok (acc.insert sym c)
        | none => .ok acc
    | _ => .ok acc) {}
  let frames := all.foldl (fun (acc : Std.HashMap SymbolId Core) s =>
    match s.kind with
    | .frame name port _ _ =>
      match name.symbol, port.symbol.bind ports.get? with
      | some f, some c => acc.insert f c
      | _, _ => acc
    | _ => acc) {}
  pure ⟨ports, frames⟩

/-- The cores that some declared port is on, in order. -/
def cores (a : CoreAffinity) : List Core := Core.ordered (a.ports.toList.map (·.2))

/-- The core of a declared frame. -/
def frameCore? (a : CoreAffinity) (i : Ident) : Option Core := i.symbol.bind a.frames.get?

/-- The core of a declared port. -/
def portCore? (a : CoreAffinity) (i : Ident) : Option Core := i.symbol.bind a.ports.get?

end CoreAffinity

/-- Whether a split block still does something: anything but declarations of values and
returns. -/
def hasEffect (stmts : List Stmt) : Bool :=
  stmts.any fun s =>
    match s.kind with
    | .grammar _ | .waveform .. | .declare .. | .input .. | .output .. | .ret _ => false
    | _ => true

/-- What the split for one core needs: the core and where ports and frames are. -/
structure CoreView where
  core : Core
  affinity : CoreAffinity

namespace CoreView

/-- Whether a frame is on this core; frames that are not declared are on every core. -/
def frameHere (v : CoreView) (frame : Ident) : Bool :=
  match v.affinity.frameCore? frame with
  | some c => c == v.core
  | none => true

/-- Whether a call belongs on this core: it passes no declared frame, or one of this core. -/
def callHere (v : CoreView) (args : List Expr) : Bool :=
  let cores := (Expr.identifiersOfList args).filterMap v.affinity.frameCore?
  cores.isEmpty || cores.contains v.core

mutual
/-- A statement as it stands in this core's program, if it stays. -/
def splitStmt (v : CoreView) : Stmt → Option Stmt
  | s@(.mk _ _ _ kind) => (splitKind v s kind).map s.withKind

/-- The kind of a statement in this core's program, if the statement stays. -/
def splitKind (v : CoreView) (s : Stmt) : StmtKind → Option StmtKind
  | .port name =>
    if (v.affinity.portCore? name).all (· == v.core) then some s.kind else none
  | .frame name .. => if v.frameHere name then some s.kind else none
  | .play f _ | .capture f _ | .update _ f _ => if v.frameHere f then some s.kind else none
  | .delay d frames =>
    if frames.isEmpty then some s.kind
    else
      let here := frames.filter v.frameHere
      if here.isEmpty then none else some (.delay d here)
  | .barrier frames times => some (.barrier (frames.map (·.filter v.frameHere)) times)
  | .cal body =>
    let b := splitBlock v body
    if b.isEmpty then none else some (.cal b)
  | .defcal name params qubits ret body =>
    let b := splitBlock v body
    if hasEffect b then some (.defcal name params qubits ret b) else none
  | .subroutine name params ret body => some (.subroutine name params ret (splitBlock v body))
  | .forLoop var ty it body =>
    let b := splitBlock v body
    if hasEffect b then some (.forLoop var ty it b) else none
  | .whileLoop cond body =>
    let b := splitBlock v body
    if hasEffect b then some (.whileLoop cond b) else none
  | .branch cond t e =>
    let t' := splitBlock v t
    let e' := match e with
      | some b => some (splitBlock v b)
      | none => none
    if hasEffect t' || (e'.map hasEffect).getD false then some (.branch cond t' e') else none
  | .gate _ args _ => if v.callHere args then some s.kind else none
  | .expr (.call _ args) => if v.callHere args then some s.kind else none
  | k => some k

/-- The statements of a block that stay in this core's program. -/
def splitBlock (v : CoreView) : List Stmt → List Stmt
  | [] => []
  | s :: rest =>
    match splitStmt v s with
    | some t => t :: splitBlock v rest
    | none => splitBlock v rest
end

end CoreView

/-- Splits an analyzed program into one program per core that one of its ports is on, in
core order. -/
def Program.splitByCore (setup : SetupConfig) (p : Program) :
    Except SemanticError (List (Core × Program)) := do
  let a ← CoreAffinity.ofProgram setup p
  pure (a.cores.map fun c => (c, CoreView.splitBlock ⟨c, a⟩ p))

end PulseCompiler
