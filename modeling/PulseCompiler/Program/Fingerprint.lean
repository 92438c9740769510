import PulseCompiler.Program.Stmt
import PulseCompiler.Json.Value
set_option autoImplicit false

/-!
# Program fingerprints

A fingerprint is a text that tells programs apart exactly when some part of them differs:
every statement with its number, range, duration and annotations, every name with its range
and symbol, and every literal with its kind. Doubles are written in their shortest
round-trip form, so `0.0` and `-0.0` differ while every `NaN` is the same. Names are
written quoted, so no name can run into the text around it.
-/

namespace PulseCompiler

/-- Fingerprint of a range. -/
def TextRange.fingerprint (r : TextRange) : String := r.text

/-- Fingerprint of a name: quoted, with its range and symbol. -/
def Ident.fingerprint (i : Ident) : String :=
  "(" ++ Json.quote i.name ++ " " ++ i.range.fingerprint ++ " " ++
    (match i.symbol with
      | some s => toString s
      | none => "_") ++ ")"

/-- Fingerprint of a literal, with its kind. -/
def Literal.fingerprint : Literal → String
  | .bool b => if b then "true" else "false"
  | .int n => "(int " ++ toString n ++ ")"
  | .float x => "(float " ++ Float.keyText x ++ ")"
  | .imaginary x => "(imag " ++ Float.keyText x ++ ")"
  | .duration v u => "(duration " ++ Float.keyText v ++ " " ++ u.suffix ++ ")"

/-- Fingerprint of an optional part. -/
def optionFingerprint {α : Type} (f : α → String) : Option α → String
  | some a => "(some " ++ f a ++ ")"
  | none => "none"

/-- Fingerprints of a list, in brackets. -/
def listFingerprint {α : Type} (f : α → String) (xs : List α) : String :=
  "[" ++ " ".intercalate (xs.map f) ++ "]"

mutual
/-- Fingerprint of an expression. -/
def Expr.fingerprint : Expr → String
  | .lit l => l.fingerprint
  | .ident i => i.fingerprint
  | .binary op l r => "(" ++ op.symbol ++ " " ++ l.fingerprint ++ " " ++ r.fingerprint ++ ")"
  | .unary op e =>
    "(" ++ (match op with
      | .neg => "neg"
      | .not => "not") ++ " " ++ e.fingerprint ++ ")"
  | .call name args => "(call " ++ name.fingerprint ++ " " ++ Expr.listFingerprint args ++ ")"
  | .array items => "(array " ++ Expr.listFingerprint items ++ ")"

/-- Fingerprints of expressions, in brackets. -/
def Expr.listFingerprint : List Expr → String
  | [] => "[]"
  | e :: rest => "[" ++ e.fingerprint ++ " " ++ Expr.listFingerprint rest ++ "]"
end

/-- Fingerprint of a type. -/
def Ty.fingerprint (t : Ty) : String := Json.quote t.text

/-- Fingerprint of a parameter. -/
def Param.fingerprint (p : Param) : String :=
  "(" ++ p.name.fingerprint ++ " " ++ p.ty.fingerprint ++ ")"

/-- Fingerprint of a qubit. -/
def Qubit.fingerprint : Qubit → String
  | .hardware n => "$" ++ toString n
  | .named i => i.fingerprint

/-- Fingerprint of a `for` loop's iteration. -/
def Iteration.fingerprint : Iteration → String
  | .range a s b =>
    "(range " ++ a.fingerprint ++ " " ++ optionFingerprint Expr.fingerprint s ++ " " ++
      b.fingerprint ++ ")"
  | .set vs => "(set " ++ Expr.listFingerprint vs ++ ")"

mutual
/-- Fingerprint of a statement. -/
def Stmt.fingerprint : Stmt → String
  | .mk id range d kind =>
    "(stmt " ++ toString id ++ " " ++ range.fingerprint ++ " " ++
      optionFingerprint (fun (r : SampleRange) => toString r.min ++ ".." ++ toString r.max) d ++
      " " ++ StmtKind.fingerprint kind ++ ")"

/-- Fingerprint of a statement kind. -/
def StmtKind.fingerprint : StmtKind → String
  | .grammar n => "(grammar " ++ Json.quote n ++ ")"
  | .port n => "(port " ++ n.fingerprint ++ ")"
  | .frame n p f ph =>
    "(frame " ++ n.fingerprint ++ " " ++ p.fingerprint ++ " " ++ f.fingerprint ++ " " ++
      ph.fingerprint ++ ")"
  | .waveform n v ti =>
    "(waveform " ++ n.fingerprint ++ " " ++ v.fingerprint ++ " " ++
      optionFingerprint toString ti ++ ")"
  | .declare n t i =>
    "(declare " ++ n.fingerprint ++ " " ++ t.fingerprint ++ " " ++
      optionFingerprint Expr.fingerprint i ++ ")"
  | .input n t => "(input " ++ n.fingerprint ++ " " ++ t.fingerprint ++ ")"
  | .output n t => "(output " ++ n.fingerprint ++ " " ++ t.fingerprint ++ ")"
  | .subroutine n ps r b =>
    "(def " ++ n.fingerprint ++ " " ++ listFingerprint Param.fingerprint ps ++ " " ++
      optionFingerprint Ty.fingerprint r ++ " " ++ Stmt.blockFingerprint b ++ ")"
  | .defcal n ps qs r b =>
    "(defcal " ++ n.fingerprint ++ " " ++ listFingerprint Param.fingerprint ps ++ " " ++
      listFingerprint Qubit.fingerprint qs ++ " " ++ optionFingerprint Ty.fingerprint r ++ " " ++
      Stmt.blockFingerprint b ++ ")"
  | .cal b => "(cal " ++ Stmt.blockFingerprint b ++ ")"
  | .gate n args qs =>
    "(gate " ++ n.fingerprint ++ " " ++ Expr.listFingerprint args ++ " " ++
      listFingerprint Qubit.fingerprint qs ++ ")"
  | .expr e => "(expr " ++ e.fingerprint ++ ")"
  | .assign t op v =>
    "(assign " ++ t.fingerprint ++ " " ++ optionFingerprint ArithOp.symbol op ++ " " ++
      v.fingerprint ++ ")"
  | .ret v => "(return " ++ optionFingerprint Expr.fingerprint v ++ ")"
  | .forLoop v t it b =>
    "(for " ++ v.fingerprint ++ " " ++ t.fingerprint ++ " " ++ it.fingerprint ++ " " ++
      Stmt.blockFingerprint b ++ ")"
  | .whileLoop c b => "(while " ++ c.fingerprint ++ " " ++ Stmt.blockFingerprint b ++ ")"
  | .branch c t e =>
    "(if " ++ c.fingerprint ++ " " ++ Stmt.blockFingerprint t ++ " " ++
      (match e with
        | some b => "(some " ++ Stmt.blockFingerprint b ++ ")"
        | none => "none") ++ ")"
  | .delay d fs => "(delay " ++ d.fingerprint ++ " " ++ listFingerprint Ident.fingerprint fs ++ ")"
  | .play f w => "(play " ++ f.fingerprint ++ " " ++ w.fingerprint ++ ")"
  | .capture f w => "(capture " ++ f.fingerprint ++ " " ++ w.fingerprint ++ ")"
  | .barrier fs ts =>
    "(barrier " ++ optionFingerprint (listFingerprint Ident.fingerprint) fs ++ " " ++
      listFingerprint toString ts ++ ")"
  | .update op f v => "(" ++ op.name ++ " " ++ f.fingerprint ++ " " ++ v.fingerprint ++ ")"

/-- Fingerprints of a block's statements, in brackets. -/
def Stmt.blockFingerprint : List Stmt → String
  | [] => "[]"
  | s :: rest => "[" ++ s.fingerprint ++ " " ++ Stmt.blockFingerprint rest ++ "]"
end

/-- Fingerprint of a program. -/
def Program.fingerprint (p : Program) : String := Stmt.blockFingerprint p

end PulseCompiler
