import PulseCompiler.Program.Stmt
import PulseCompiler.Number.Text
set_option autoImplicit false

/-!
# Program text

Programs print as OpenPulse source: four spaces of indentation per block, one statement a
line, operands that are themselves binary operations in parentheses, and numbers in the
positional program layout (`5000000000`, `0.5`). Annotations are not printed.
-/

namespace PulseCompiler

/-- Text of a literal. -/
def Literal.text : Literal → String
  | .bool b => if b then "true" else "false"
  | .int n => toString n
  | .float x => Float.programText x
  | .imaginary x => Float.programText x ++ "im"
  | .duration v u => Float.programText v ++ u.suffix

namespace Expr

/-- The text of an operand, parenthesized when the operand is a binary operation. -/
def operand (e : Expr) (t : String) : String :=
  match e with
  | binary .. => "(" ++ t ++ ")"
  | _ => t

mutual
/-- Source text of an expression. -/
def text : Expr → String
  | lit l => l.text
  | ident i => i.name
  | binary op l r => operand l (text l) ++ " " ++ op.symbol ++ " " ++ operand r (text r)
  | unary op e => (match op with | .neg => "-" | .not => "!") ++ operand e (text e)
  | call name args => name.name ++ "(" ++ listText args ++ ")"
  | array items => "[" ++ listText items ++ "]"

/-- Comma-separated expressions. -/
def listText : List Expr → String
  | [] => ""
  | [e] => text e
  | e :: rest => text e ++ ", " ++ listText rest
end

end Expr

/-- Names joined by commas. -/
def Ident.joined (is : List Ident) : String := ", ".intercalate (is.map (·.name))

/-- Parameters as `type name`, joined by commas. -/
def Param.joined (ps : List Param) : String :=
  ", ".intercalate (ps.map fun p => p.ty.text ++ " " ++ p.name.name)

/-- Indentation of a nesting depth. -/
def indentText (depth : Nat) : String := String.join (List.replicate depth "    ")

/-- ` -> type` for a declared return type. -/
def returnText : Option Ty → String
  | some t => " -> " ++ t.text
  | none => ""

mutual
/-- A statement at a nesting depth, with its line break. -/
def Stmt.textAt (depth : Nat) : Stmt → String
  | .mk _ _ _ k => indentText depth ++ k.textAt depth ++ "\n"

/-- A statement's text after its indentation, without the line break. -/
def StmtKind.textAt (depth : Nat) : StmtKind → String
  | .grammar g => "defcalgrammar \"" ++ g ++ "\";"
  | .port n => "port " ++ n.name ++ ";"
  | .frame n p f ph =>
    "frame " ++ n.name ++ " = newframe(" ++ p.name ++ ", " ++ f.text ++ ", " ++ ph.text ++ ");"
  | .waveform n v _ => "waveform " ++ n.name ++ " = " ++ v.text ++ ";"
  | .declare n t (some init) => t.text ++ " " ++ n.name ++ " = " ++ init.text ++ ";"
  | .declare n t none => t.text ++ " " ++ n.name ++ ";"
  | .input n t => "input " ++ t.text ++ " " ++ n.name ++ ";"
  | .output n t => "output " ++ t.text ++ " " ++ n.name ++ ";"
  | .subroutine n ps r b =>
    "def " ++ n.name ++ "(" ++ Param.joined ps ++ ")" ++ returnText r ++ " " ++
      Stmt.blockText depth b
  | .defcal n ps qs r b =>
    "defcal " ++ n.name ++ (if ps.isEmpty then "" else "(" ++ Param.joined ps ++ ")") ++
      (if qs.isEmpty then "" else " " ++ Qubit.joined qs) ++ returnText r ++ " " ++
      Stmt.blockText depth b
  | .cal b => "cal " ++ Stmt.blockText depth b
  | .gate n args qs =>
    n.name ++ (if args.isEmpty then "" else "(" ++ Expr.listText args ++ ")") ++
      (if qs.isEmpty then "" else " " ++ Qubit.joined qs) ++ ";"
  | .expr e => e.text ++ ";"
  | .assign t op v =>
    t.name ++ " " ++ (op.map ArithOp.symbol).getD "" ++ "= " ++ v.text ++ ";"
  | .ret (some v) => "return " ++ v.text ++ ";"
  | .ret none => "return;"
  | .forLoop v t it b =>
    "for " ++ t.text ++ " " ++ v.name ++ " in " ++
      (match it with
        | .range start (some step) stop =>
          "[" ++ start.text ++ ":" ++ step.text ++ ":" ++ stop.text ++ "] "
        | .range start none stop => "[" ++ start.text ++ ":" ++ stop.text ++ "] "
        | .set values => "\x7b" ++ Expr.listText values ++ "\x7d ") ++
      Stmt.blockText depth b
  | .whileLoop c b => "while (" ++ c.text ++ ") " ++ Stmt.blockText depth b
  | .branch c t e =>
    "if (" ++ c.text ++ ") " ++ Stmt.blockText depth t ++
      (match e with
        | some eb => " else " ++ Stmt.blockText depth eb
        | none => "")
  | .delay d frames => "delay[" ++ d.text ++ "] " ++ Ident.joined frames ++ ";"
  | .play f w => "play(" ++ f.name ++ ", " ++ w.text ++ ");"
  | .capture f w => "capture(" ++ f.name ++ ", " ++ w.text ++ ");"
  | .barrier (some frames) _ => "barrier " ++ Ident.joined frames ++ ";"
  | .barrier none _ => "barrier;"
  | .update op f v => op.name ++ "(" ++ f.name ++ ", " ++ v.text ++ ");"

/-- A block opened on the current line and closed at the given depth. -/
def Stmt.blockText (depth : Nat) (b : List Stmt) : String :=
  "\x7b\n" ++ Stmt.linesAt (depth + 1) b ++ indentText depth ++ "\x7d"

/-- Statements at a depth, each on its own line. -/
def Stmt.linesAt (depth : Nat) : List Stmt → String
  | [] => ""
  | s :: rest => s.textAt depth ++ Stmt.linesAt depth rest
end

/-- Text of a top-level statement. -/
def Stmt.text (s : Stmt) : String := s.textAt 0

/-- Text of a program. -/
def Program.text (p : Program) : String := Stmt.linesAt 0 p

end PulseCompiler
