import PulseCompiler.Program.Stmt
import PulseCompiler.Analysis.Error
import PulseCompiler.Number.Text
set_option autoImplicit false

/-!
# Program inputs

A caller may supply values for a program's `input` declarations. An input with a value
becomes a declaration of the declared type initialized with that value; an input without one
stays as it is, a value known only at run time. Booleans fit `bool`; integers fit `int`,
`uint` and `bit`; numbers fit `float` and `angle`; durations are given in seconds, as numbers;
an array of integers fits an array of the same length whose elements the integers fit.
Programs may not declare outputs.
-/

namespace PulseCompiler

/-- A value supplied for an input. -/
inductive InputValue where
  | bool (b : Bool)
  | int (n : Int)
  | float (x : Float)
  | bits (values : List Int)
  deriving Repr, Inhabited

namespace InputValue

/-- The value as it is named in a complaint: `Bool(true)`, `Int(3)`, `Float(1.5)`,
`Bits([1, 0])`. -/
def text : InputValue → String
  | bool b => "Bool(" ++ (if b then "true" else "false") ++ ")"
  | int n => "Int(" ++ toString n ++ ")"
  | float x => "Float(" ++ Float.keyText x ++ ")"
  | bits vs => "Bits([" ++ ", ".intercalate (vs.map toString) ++ "])"

end InputValue

/-- Input values by name, ordered by name. -/
abbrev Inputs := List (String × InputValue)

/-- The initializer a value gives an input of a type, if the value fits the type. -/
def InputValue.initializer : Ty → InputValue → Option Expr
  | .bool _, .bool b => some (.lit (.bool b))
  | .int .., .int n | .uint .., .int n | .bit _, .int n => some (.lit (.int n))
  | .float .., .float x | .angle .., .float x => some (.lit (.float x))
  | .float .., .int n | .angle .., .int n => some (.lit (.float (Float.ofInt n)))
  | .duration _, .float x => some (.lit (.duration (x * 1e9) .ns))
  | .duration _, .int n => some (.lit (.duration (Float.ofInt n * 1e9) .ns))
  | .array elem len, .bits vs =>
    if vs.length == len then
      (vs.mapM fun v => InputValue.initializer elem (.int v)).map Expr.array
    else none
  | _, _ => none

/-- Substitutes supplied values for the inputs declared at the top level of a program, in
order, returning the program and the names of the inputs that got a value. -/
def Program.resolveInputs (inputs : Inputs) (p : Program) :
    Except SemanticError (Program × List String) :=
  p.foldlM (fun (acc : Program × List String) s =>
    match s.kind with
    | .output name _ =>
      .error ⟨.invalidInput ("output declarations are not supported: `" ++ name.name ++ "`"),
        s.range⟩
    | .input name ty =>
      match inputs.lookup name.name with
      | none => .ok (acc.1 ++ [s], acc.2)
      | some v =>
        match v.initializer ty with
        | some init =>
          .ok (acc.1 ++ [s.withKind (.declare name ty (some init))], acc.2 ++ [name.name])
        | none =>
          .error ⟨.invalidInput ("value " ++ v.text ++ " does not fit `input " ++ ty.text ++ " " ++
            name.name ++ "`"), s.range⟩
    | _ => .ok (acc.1 ++ [s], acc.2)) ([], [])

end PulseCompiler
