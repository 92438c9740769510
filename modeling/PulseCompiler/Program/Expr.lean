import PulseCompiler.Program.Type
set_option autoImplicit false

/-!
# Expressions

Identifiers carry their text range and, once the analyzer has resolved them, the symbol they
denote. Literals are booleans, 64-bit integers, doubles, imaginary numbers and durations in a
time unit. Expressions combine them with arithmetic, comparison, logic, waveform
concatenation, negation, calls and array literals.

`Expr.identifiers` lists the identifiers of an expression from left to right, a call's name
before its arguments.
-/

namespace PulseCompiler

/-- A range of the source text, `start..stop`. -/
structure TextRange where
  start : Nat := 0
  stop : Nat := 0
  deriving Repr, DecidableEq, Inhabited

/-- `start..stop`. -/
def TextRange.text (r : TextRange) : String := toString r.start ++ ".." ++ toString r.stop

/-- The number the analyzer gives a declared name. -/
abbrev SymbolId := Nat

/-- A name in the program, with its place in the source and, after analysis, its symbol. -/
structure Ident where
  name : String
  range : TextRange := {}
  symbol : Option SymbolId := none
  deriving Repr, DecidableEq, Inhabited

/-- Units of time. `dt` is one sample of the target hardware. -/
inductive TimeUnit where
  | dt | ns | us | ms | s
  deriving Repr, DecidableEq, Inhabited

namespace TimeUnit

/-- Units in one second; `none` for `dt`, whose length depends on the hardware. -/
def perSecond : TimeUnit → Option Float
  | dt => none
  | ns => some 1e9
  | us => some 1e6
  | ms => some 1e3
  | s => some 1.0

/-- The suffix written after a duration's value. -/
def suffix : TimeUnit → String
  | dt => "dt"
  | ns => "ns"
  | us => "us"
  | ms => "ms"
  | s => "s"

end TimeUnit

/-- A literal value. Integers are within the signed 64-bit range. -/
inductive Literal where
  | bool (b : Bool)
  | int (n : Int)
  | float (x : Float)
  | imaginary (x : Float)
  | duration (value : Float) (unit : TimeUnit)
  deriving Repr, Inhabited

/-- Arithmetic operators, also used by compound assignment. -/
inductive ArithOp where
  | add | sub | mul | div | mod | pow
  deriving Repr, DecidableEq, Inhabited

/-- Comparison operators. -/
inductive CmpOp where
  | eq | neq | lt | gt | le | ge
  deriving Repr, DecidableEq, Inhabited

/-- Logical operators. -/
inductive LogicOp where
  | and | or
  deriving Repr, DecidableEq, Inhabited

/-- Binary operators; `concat` joins waveforms. -/
inductive BinaryOp where
  | arith (op : ArithOp)
  | cmp (op : CmpOp)
  | logic (op : LogicOp)
  | concat
  deriving Repr, DecidableEq, Inhabited

/-- Unary operators. -/
inductive UnaryOp where
  | neg | not
  deriving Repr, DecidableEq, Inhabited

/-- An expression. -/
inductive Expr where
  | lit (l : Literal)
  | ident (i : Ident)
  | binary (op : BinaryOp) (left right : Expr)
  | unary (op : UnaryOp) (operand : Expr)
  | call (name : Ident) (args : List Expr)
  | array (items : List Expr)
  deriving Repr, Inhabited

namespace ArithOp

/-- Operator symbol. -/
def symbol : ArithOp → String
  | add => "+" | sub => "-" | mul => "*" | div => "/" | mod => "%" | pow => "**"

/-- Operator name used in messages. -/
def name : ArithOp → String
  | add => "Add" | sub => "Sub" | mul => "Mul" | div => "Div" | mod => "Mod" | pow => "Pow"

end ArithOp

namespace CmpOp

/-- Operator symbol. -/
def symbol : CmpOp → String
  | eq => "==" | neq => "!=" | lt => "<" | gt => ">" | le => "<=" | ge => ">="

/-- Operator name used in messages. -/
def name : CmpOp → String
  | eq => "Eq" | neq => "Neq" | lt => "Lt" | gt => "Gt" | le => "LtEq" | ge => "GtEq"

end CmpOp

/-- Operator symbol. -/
def BinaryOp.symbol : BinaryOp → String
  | .arith op => op.symbol
  | .cmp op => op.symbol
  | .logic .and => "&&"
  | .logic .or => "||"
  | .concat => "++"

namespace Expr

/-- An identifier expression with no range. -/
def named (name : String) : Expr := .ident { name }

mutual
/-- Identifiers from left to right; a call's name comes before its arguments. -/
def identifiers : Expr → List Ident
  | lit _ => []
  | ident i => [i]
  | binary _ l r => identifiers l ++ identifiers r
  | unary _ e => identifiers e
  | call name args => name :: identifiersOfList args
  | array items => identifiersOfList items

/-- Identifiers of a list of expressions, in order. -/
def identifiersOfList : List Expr → List Ident
  | [] => []
  | e :: rest => identifiers e ++ identifiersOfList rest
end

end Expr

end PulseCompiler
