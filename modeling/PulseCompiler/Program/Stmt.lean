import PulseCompiler.Program.Expr
set_option autoImplicit false

/-!
# Statements and programs

A statement has a kind, a place in the source, and three annotations written by the passes:
its number in pre-order (`id`), the range of sample counts it took over all evaluations
(`duration`), and for barriers the times they synchronized to, for waveform declarations the
command table index.

Blocks are lists of statements. `Stmt.walk` lists a statement and everything nested in it in
pre-order, the order in which statements are numbered. `Stmt.declared` and
`Stmt.references` are the names a statement introduces and the names it uses, not counting
nested blocks.
-/

namespace PulseCompiler

/-- A qubit operand: a hardware qubit `$n` or a named qubit. -/
inductive Qubit where
  | hardware (index : Nat)
  | named (name : Ident)
  deriving Repr, Inhabited

namespace Qubit

/-- `$n` or the name. -/
def text : Qubit → String
  | hardware n => "$" ++ toString n
  | named i => i.name

/-- Qubits joined by commas. -/
def joined (qs : List Qubit) : String := ", ".intercalate (qs.map text)

/-- The index of a hardware qubit; a named qubit has none. -/
def hardwareIndex? : Qubit → Option Nat
  | hardware n => some n
  | named _ => none

/-- The name of a named qubit; a hardware qubit has none. -/
def name? : Qubit → Option Ident
  | hardware _ => none
  | named i => some i

end Qubit

/-- Updates of a frame's frequency or phase. -/
inductive FrameOp where
  | setFrequency | shiftFrequency | setPhase | shiftPhase
  deriving Repr, DecidableEq, Inhabited

/-- The statement keyword of a frame update. -/
def FrameOp.name : FrameOp → String
  | .setFrequency => "set_frequency"
  | .shiftFrequency => "shift_frequency"
  | .setPhase => "set_phase"
  | .shiftPhase => "shift_phase"

/-- A parameter of a subroutine or defcal. -/
structure Param where
  name : Ident
  ty : Ty
  deriving Repr, Inhabited

/-- What a `for` loop runs over: an inclusive range `[start:step:stop]` or a set of values. -/
inductive Iteration where
  | range (start : Expr) (step : Option Expr) (stop : Expr)
  | set (values : List Expr)
  deriving Repr, Inhabited

/-- The fewest and most samples a statement took over all its evaluations. -/
structure SampleRange where
  min : Nat
  max : Nat
  deriving Repr, DecidableEq, Inhabited

/-- Widens a range to include one more evaluation. -/
def SampleRange.include (r : SampleRange) (samples : Nat) : SampleRange :=
  ⟨Nat.min r.min samples, Nat.max r.max samples⟩

mutual
/-- A statement: pre-order number, source range, resolved duration, and kind. -/
inductive Stmt where
  | mk (id : Nat) (range : TextRange) (duration : Option SampleRange) (kind : StmtKind)

/-- The kinds of statement. -/
inductive StmtKind where
  | grammar (name : String)
  | port (name : Ident)
  | frame (name port : Ident) (frequency phase : Expr)
  | waveform (name : Ident) (value : Expr) (tableIndex : Option Nat)
  | declare (name : Ident) (ty : Ty) (init : Option Expr)
  | input (name : Ident) (ty : Ty)
  | output (name : Ident) (ty : Ty)
  | subroutine (name : Ident) (params : List Param) (ret : Option Ty) (body : List Stmt)
  | defcal (name : Ident) (params : List Param) (qubits : List Qubit) (ret : Option Ty)
      (body : List Stmt)
  | cal (body : List Stmt)
  | gate (name : Ident) (args : List Expr) (qubits : List Qubit)
  | expr (e : Expr)
  | assign (target : Ident) (op : Option ArithOp) (value : Expr)
  | ret (value : Option Expr)
  | forLoop (var : Ident) (ty : Ty) (iteration : Iteration) (body : List Stmt)
  | whileLoop (cond : Expr) (body : List Stmt)
  | branch (cond : Expr) (thenBody : List Stmt) (elseBody : Option (List Stmt))
  | delay (duration : Expr) (frames : List Ident)
  | play (frame : Ident) (waveform : Expr)
  | capture (frame : Ident) (waveform : Expr)
  | barrier (frames : Option (List Ident)) (syncTimes : List Nat)
  | update (op : FrameOp) (frame : Ident) (value : Expr)
end

instance : Inhabited StmtKind := ⟨.grammar ""⟩
instance : Inhabited Stmt := ⟨.mk 0 {} none default⟩

/-- A program is its list of top-level statements. -/
abbrev Program := List Stmt

namespace Stmt

/-- A statement of a kind, not yet numbered, at the empty range. -/
def ofKind (k : StmtKind) : Stmt := .mk 0 {} none k

/-- Pre-order number. -/
def id : Stmt → Nat | mk i _ _ _ => i
/-- Source range. -/
def range : Stmt → TextRange | mk _ r _ _ => r
/-- Resolved duration, if the statement was timed. -/
def duration : Stmt → Option SampleRange | mk _ _ d _ => d
/-- Kind. -/
def kind : Stmt → StmtKind | mk _ _ _ k => k

/-- The same statement with another kind. -/
def withKind (s : Stmt) (k : StmtKind) : Stmt := .mk s.id s.range s.duration k
/-- The same statement with another number. -/
def withId (s : Stmt) (i : Nat) : Stmt := .mk i s.range s.duration s.kind
/-- The same statement with another source range. -/
def withRange (s : Stmt) (r : TextRange) : Stmt := .mk s.id r s.duration s.kind
/-- The same statement with a resolved duration. -/
def withDuration (s : Stmt) (d : Option SampleRange) : Stmt := .mk s.id s.range d s.kind

@[simp] theorem id_mk (i r d k) : (Stmt.mk i r d k).id = i := rfl
@[simp] theorem kind_mk (i r d k) : (Stmt.mk i r d k).kind = k := rfl
@[simp] theorem kind_withKind (s : Stmt) (k : StmtKind) : (s.withKind k).kind = k := rfl
@[simp] theorem id_withKind (s : Stmt) (k : StmtKind) : (s.withKind k).id = s.id := rfl

end Stmt

namespace StmtKind

/-- The blocks a statement owns directly, the `else` block only when present. -/
def blocks : StmtKind → List (List Stmt)
  | subroutine _ _ _ b | defcal _ _ _ _ b | cal b | forLoop _ _ _ b | whileLoop _ b => [b]
  | branch _ t (some e) => [t, e]
  | branch _ t none => [t]
  | _ => []

/-- The name a declaration introduces. -/
def declared : StmtKind → Option Ident
  | port n | frame n .. | waveform n .. | declare n .. | input n _ | output n _
  | subroutine n .. | defcal n .. => some n
  | _ => none

/-- Names used by a statement, in source order, not counting nested blocks or the name it
declares. -/
def references : StmtKind → List Ident
  | grammar _ | port _ | input .. | output .. => []
  | frame _ source f p => source :: (f.identifiers ++ p.identifiers)
  | waveform _ v _ => v.identifiers
  | declare _ _ init => (init.map Expr.identifiers).getD []
  | subroutine .. | defcal .. | cal _ => []
  | gate name args qubits => name :: (Expr.identifiersOfList args ++ qubits.filterMap Qubit.name?)
  | expr e => e.identifiers
  | assign target _ v => target :: v.identifiers
  | ret v => (v.map Expr.identifiers).getD []
  | forLoop _ _ (.range start step stop) _ =>
    start.identifiers ++ (step.map Expr.identifiers).getD [] ++ stop.identifiers
  | forLoop _ _ (.set values) _ => Expr.identifiersOfList values
  | whileLoop c _ | branch c .. => c.identifiers
  | delay d frames => d.identifiers ++ frames
  | play f w | capture f w => f :: w.identifiers
  | barrier frames _ => frames.getD []
  | update _ f v => f :: v.identifiers

/-- Delays, plays and captures take time of their own. -/
def isTimed : StmtKind → Bool
  | delay .. | play .. | capture .. => true
  | _ => false

/-- The keyword naming the statement's kind in reports. -/
def keyword : StmtKind → String
  | grammar _ => "grammar" | port _ => "port" | frame .. => "frame"
  | waveform .. => "waveform" | declare .. => "decl" | input .. => "input"
  | output .. => "output" | subroutine .. => "def" | defcal .. => "defcal" | cal _ => "cal"
  | gate .. => "gate" | expr _ => "expr" | assign .. => "assign" | ret _ => "return"
  | forLoop .. => "for" | whileLoop .. => "while" | branch .. => "if" | delay .. => "delay"
  | play .. => "play" | capture .. => "capture" | barrier .. => "barrier"
  | update op _ _ => op.name

end StmtKind

mutual
/-- The statement followed by every statement nested in it, in pre-order. -/
def Stmt.walk : Stmt → List Stmt
  | s@(.mk _ _ _ k) => s :: k.walkBlocks

/-- Statements nested in the blocks of a kind, in pre-order. -/
def StmtKind.walkBlocks : StmtKind → List Stmt
  | .subroutine _ _ _ b | .defcal _ _ _ _ b | .cal b | .forLoop _ _ _ b | .whileLoop _ b =>
    Stmt.walkList b
  | .branch _ t e => Stmt.walkList t ++ (match e with | some b => Stmt.walkList b | none => [])
  | _ => []

/-- Every statement of a block and its nested blocks, in pre-order. -/
def Stmt.walkList : List Stmt → List Stmt
  | [] => []
  | s :: rest => s.walk ++ Stmt.walkList rest
end

end PulseCompiler
