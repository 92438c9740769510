import PulseCompiler.Analysis.Scope
import PulseCompiler.Program.Expr
set_option autoImplicit false

/-!
# Compile errors

Every pass stops at its first error. An error has a cause and the source range it points at;
`SemanticError.message` words the cause, and `SemanticError.display` adds the range as
`start..stop`.
-/

namespace PulseCompiler

/-- Causes of a failed compile. -/
inductive ErrorCause where
  | undeclared (name : String)
  | duplicate (name : String)
  | illegalPlacement (statement : String) (scope : ScopeKind)
  | scopeUnderflow
  | arity (name : String) (expected found : Nat)
  | notCallable (name : String)
  | typeMismatch (name : String) (expected found : Ty)
  | unresolvedDuration (why : String)
  | tableFull (capacity : Nat)
  | missingCore (name : String)
  | includeFailed (why : String)
  | invalidInput (why : String)
  | splitMismatch (core : String)
  | warningsPromoted (count : Nat)
  deriving Repr, DecidableEq, Inhabited

namespace ErrorCause

/-- The name of the cause's family in reports. -/
def family : ErrorCause → String
  | undeclared _ => "UndeclaredIdentifier"
  | duplicate _ => "DuplicateDeclaration"
  | illegalPlacement .. => "IllegalScopeForStatement"
  | scopeUnderflow => "ScopeUnderflow"
  | arity .. => "ArityMismatch"
  | notCallable _ => "NotCallable"
  | typeMismatch .. => "TypeMismatch"
  | unresolvedDuration _ => "UnresolvedDuration"
  | tableFull _ => "CommandTableCapacityExceeded"
  | missingCore _ => "MissingSetupMapping"
  | includeFailed _ => "IncludeError"
  | invalidInput _ => "InvalidInput"
  | splitMismatch _ => "SplitTimingMismatch"
  | warningsPromoted _ => "WarningsPromoted"

/-- The message of a cause. -/
def message : ErrorCause → String
  | undeclared n => "undeclared identifier `" ++ n ++ "`"
  | duplicate n => "`" ++ n ++ "` is already declared in this scope"
  | illegalPlacement s k => "`" ++ s ++ "` is not allowed in " ++ k.name ++ " scope"
  | scopeUnderflow => "attempt to leave the global scope"
  | arity n e f =>
    "`" ++ n ++ "` takes " ++ toString e ++ " argument(s) but " ++ toString f ++ " were supplied"
  | notCallable n => "`" ++ n ++ "` is not callable"
  | typeMismatch n e f =>
    "mismatched types for `" ++ n ++ "`: expected `" ++ e.text ++ "`, found `" ++ f.text ++ "`"
  | unresolvedDuration w => "duration cannot be determined statically: " ++ w
  | tableFull c => "command table is full: more than " ++ toString c ++ " distinct waveforms"
  | missingCore n => "no core in the setup for `" ++ n ++ "`"
  | includeFailed w => "include failed: " ++ w
  | invalidInput w => "invalid input: " ++ w
  | splitMismatch c => "split program for " ++ c ++ " does not reproduce the barrier timeline"
  | warningsPromoted n => toString n ++ " warning(s) treated as errors"

/-- The cause a failed scope operation on a name stands for. -/
def ofSymbolError (name : String) : SymbolError → ErrorCause
  | .missingBinding => undeclared name
  | .alreadyBound => duplicate name
  | .scopeUnderflow => scopeUnderflow

end ErrorCause

/-- A compile error: its cause and the source range it points at. -/
structure SemanticError where
  cause : ErrorCause
  range : TextRange
  deriving Repr, DecidableEq, Inhabited

namespace SemanticError

/-- The message of the error's cause. -/
def message (e : SemanticError) : String := e.cause.message

/-- The message followed by the range, as `message, start..stop`. -/
def display (e : SemanticError) : String := e.message ++ ", " ++ e.range.text

end SemanticError

end PulseCompiler
