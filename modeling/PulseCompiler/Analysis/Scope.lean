import PulseCompiler.Generator
import PulseCompiler.Program.Expr
import PulseCompiler.Program.Builtin
set_option autoImplicit false

/-!
# Scopes and symbols

The analyzer binds names in a stack of scopes. The global scope is always at the bottom and
is never left; subroutine and defcal bodies and control-flow blocks open scopes above it.
Every declaration creates a new symbol, numbered by its position in the list of all symbols
ever declared, so numbers are never reused. A name is looked up from the innermost scope
outwards. `cal` blocks do not open a scope; they only deepen the calibration level.

Where a statement may stand is decided by a small table on the *scope state*: the innermost
scope that is not a control-flow block, whether the current scope is one, and whether a
`cal` block is open.
-/

namespace PulseCompiler

/-- The kinds of scope. -/
inductive ScopeKind where
  | global | subroutine | defcal | local
  deriving Repr, DecidableEq, Inhabited

/-- Name of a scope kind in messages. -/
def ScopeKind.name : ScopeKind → String
  | .global => "Global"
  | .subroutine => "Subroutine"
  | .defcal => "DefCal"
  | .local => "Local"

/-- What a symbol denotes. -/
inductive SymbolKind where
  | port | frame | waveform | qubit
  | classical (ty : Ty)
  | subroutine (sig : Signature)
  | defcal (sig : Signature)
  | generator (sig : Signature)
  | builtin
  deriving Repr, DecidableEq, Inhabited

namespace SymbolKind

/-- The type of a reference to the symbol; a callable has the type it returns. -/
def type : SymbolKind → Ty
  | port => .port
  | frame => .frame
  | waveform => .waveform
  | qubit => .qubit
  | classical t => t
  | builtin => .float none true
  | subroutine s | defcal s | generator s => s.ret.getD .void

/-- A short description: the kind's name, with the type or signature where it has one. -/
def describe : SymbolKind → String
  | port => "port"
  | frame => "frame"
  | waveform => "waveform"
  | qubit => "qubit"
  | builtin => "builtin"
  | classical t => "classical " ++ t.text
  | subroutine s => "subroutine " ++ s.text
  | defcal s => "defcal " ++ s.text
  | generator s => "generator " ++ s.text

/-- The symbol kind a declaration of a type introduces. -/
def ofType : Ty → SymbolKind
  | .port => port
  | .frame => frame
  | .waveform => waveform
  | .qubit => qubit
  | t => classical t

end SymbolKind

/-- A declared symbol: its name, what it denotes, and the kind of scope it was declared in. -/
structure Symbol where
  name : String
  kind : SymbolKind
  scope : ScopeKind
  deriving Repr, DecidableEq, Inhabited

/-- Why a scope operation fails. -/
inductive SymbolError where
  | missingBinding | alreadyBound | scopeUnderflow
  deriving Repr, DecidableEq, Inhabited

/-- Text of a scope failure. -/
def SymbolError.message : SymbolError → String
  | .missingBinding => "name is not bound in any open scope"
  | .alreadyBound => "name is already bound in this scope"
  | .scopeUnderflow => "no scope to leave"

/-- Classes of statements whose legality depends on where they stand. -/
inductive StmtClass where
  /-- `delay`, `play`, `capture`, frame updates, port, frame and waveform declarations. -/
  | calibration
  /-- `cal`, `def`, `defcal`, `defcalgrammar`, `input` and `output`. -/
  | topLevel
  /-- `return`. -/
  | ret
  /-- Everything else. -/
  | anywhere
  deriving Repr, DecidableEq, Inhabited

/-- Where the analyzer stands, as far as statement legality is concerned. -/
structure ScopeState where
  enclosing : ScopeKind
  inLocal : Bool
  calibration : Bool
  deriving Repr, DecidableEq, Inhabited

/-- The table of legal statement classes per scope state. -/
def ScopeState.allows (st : ScopeState) : StmtClass → Bool
  | .anywhere => true
  | .calibration =>
    match st.enclosing with
    | .defcal => true
    | .global => st.calibration
    | _ => false
  | .topLevel => st.enclosing == .global && !st.inLocal && !st.calibration
  | .ret => st.enclosing != .global

/-- One open scope: its kind and its bindings, the latest first. -/
structure Scope where
  kind : ScopeKind
  bindings : List (String × SymbolId)
  deriving Repr, DecidableEq, Inhabited

/-- The binding of a name in a scope. -/
def Scope.find? (s : Scope) (name : String) : Option SymbolId :=
  (s.bindings.find? (·.1 == name)).map (·.2)

/-- The stack of open scopes and every symbol declared so far. The global scope is kept
apart, so the stack can never lose it. -/
structure SymbolTable where
  global : Scope
  /-- Scopes above the global one, innermost first. -/
  inner : List Scope
  /-- All symbols in order of declaration; a symbol's number is its position. -/
  symbols : Array Symbol
  calibrationDepth : Nat
  deriving Repr, Inhabited

/-- What looking up a name found: the symbol's number, the symbol, and the depth of the scope
binding it (the global scope is level zero). -/
structure Resolution where
  id : SymbolId
  symbol : Symbol
  level : Nat
  deriving Repr, Inhabited

/-- Text of the assertion that a second global scope violates. -/
def secondGlobalMessage : String := "The unique global scope must be the first scope."

namespace SymbolTable

/-- The innermost open scope. -/
def current (t : SymbolTable) : Scope := t.inner.headD t.global

/-- Number of open scopes. -/
def depth (t : SymbolTable) : Nat := t.inner.length + 1

/-- Replaces the innermost scope. -/
def setCurrent (t : SymbolTable) (s : Scope) : SymbolTable :=
  match t.inner with
  | [] => { t with global := s }
  | _ :: rest => { t with inner := s :: rest }

/-- Binds a name in the innermost scope to a new symbol; refused when that scope binds the
name already. -/
def declare (t : SymbolTable) (name : String) (kind : SymbolKind) :
    Except SymbolError (SymbolId × SymbolTable) :=
  let cur := t.current
  if (cur.find? name).isSome then .error .alreadyBound
  else
    let id := t.symbols.size
    let t' := { t with symbols := t.symbols.push ⟨name, kind, cur.kind⟩ }
    .ok (id, t'.setCurrent { cur with bindings := (name, id) :: cur.bindings })

/-- The table before any program: the global scope with the predefined constants. -/
def initial : SymbolTable :=
  builtinConstants.foldl
    (fun t (n, _) => match t.declare n .builtin with | .ok (_, t') => t' | .error _ => t)
    ⟨⟨.global, []⟩, [], #[], 0⟩

/-- Opens a scope of a kind; `none` for a second global scope. -/
def enter (t : SymbolTable) (kind : ScopeKind) : Option SymbolTable :=
  if kind == .global then none else some { t with inner := ⟨kind, []⟩ :: t.inner }

/-- Closes the innermost scope, giving its kind; the global scope cannot be closed. -/
def leave (t : SymbolTable) : Except SymbolError (ScopeKind × SymbolTable) :=
  match t.inner with
  | [] => .error .scopeUnderflow
  | s :: rest => .ok (s.kind, { t with inner := rest })

/-- Opens a `cal` block. -/
def enterCalibration (t : SymbolTable) : SymbolTable :=
  { t with calibrationDepth := t.calibrationDepth + 1 }

/-- Closes a `cal` block; refused when none is open. -/
def leaveCalibration (t : SymbolTable) : Except SymbolError SymbolTable :=
  match t.calibrationDepth with
  | 0 => .error .scopeUnderflow
  | n + 1 => .ok { t with calibrationDepth := n }

/-- The scope state: the innermost scope that is not a control-flow block, whether the
innermost scope is one, and whether a `cal` block is open. -/
def state (t : SymbolTable) : ScopeState :=
  { enclosing := ((t.inner.find? (·.kind != .local)).map (·.kind)).getD .global
    inLocal := t.current.kind == .local
    calibration := t.calibrationDepth > 0 }

/-- Whether a statement class may stand at the current position. -/
def allows (t : SymbolTable) (c : StmtClass) : Bool := t.state.allows c

/-- The symbol of a number. -/
def get? (t : SymbolTable) (id : SymbolId) : Option Symbol := t.symbols[id]?

/-- Looks a name up from the innermost scope outwards. -/
def resolve (t : SymbolTable) (name : String) : Except SymbolError Resolution :=
  let scopes := t.inner ++ [t.global]
  let rec go : List Scope → Nat → Except SymbolError Resolution
    | [], _ => .error .missingBinding
    | s :: rest, level =>
      match s.find? name with
      | some id =>
        match t.get? id with
        | some sym => .ok ⟨id, sym, level⟩
        | none => .error .missingBinding
      | none => go rest (level - 1)
  go scopes t.inner.length

/-- The binding of a name in the innermost scope only. -/
def lookupCurrent (t : SymbolTable) (name : String) : Option SymbolId := t.current.find? name

/-- Number of bindings in the innermost scope. -/
def currentSize (t : SymbolTable) : Nat := t.current.bindings.length

/-- The type of a reference to a symbol, `undefined` for an unknown number. -/
def typeOf (t : SymbolTable) (id : SymbolId) : Ty :=
  match t.get? id with
  | some s => s.kind.type
  | none => .undefined

end SymbolTable

end PulseCompiler
