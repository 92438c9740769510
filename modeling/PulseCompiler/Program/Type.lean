set_option autoImplicit false

/-!
# Types of pulse programs

Classical scalars carry a `const` flag, and most carry an optional bit width. Arrays have a
fixed length. Ports, frames, waveforms and qubits are the pulse-level types; `void` is the
result of a subroutine without a return type, and `undefined` the type of an expression that
refers to nothing, which is compatible with every type so that one mistake is reported once.

Assignability ignores constness and widths: numeric scalars are interchangeable except that
a complex value fits only a complex target, an array of numbers is a waveform, and arrays
must agree in length. Promotion gives the type of an arithmetic result.
-/

namespace PulseCompiler

/-- A type of the language. -/
inductive Ty where
  | bool (const : Bool)
  | bit (const : Bool)
  | int (width : Option Nat) (const : Bool)
  | uint (width : Option Nat) (const : Bool)
  | float (width : Option Nat) (const : Bool)
  | angle (width : Option Nat) (const : Bool)
  | complex (width : Option Nat) (const : Bool)
  | duration (const : Bool)
  | array (elem : Ty) (length : Nat)
  | port
  | frame
  | waveform
  | qubit
  | void
  | undefined
  deriving Repr, DecidableEq, Inhabited

namespace Ty

/-- The `const` flag of a scalar; other types are never constant. -/
def isConst : Ty → Bool
  | bool c | bit c | duration c => c
  | int _ c | uint _ c | float _ c | angle _ c | complex _ c => c
  | _ => false

/-- The types whose values take part in arithmetic. -/
def isNumeric : Ty → Bool
  | bool _ | bit _ | int .. | uint .. | float .. | angle .. | complex .. => true
  | _ => false

/-- The same type with the `const` flag cleared. -/
def withoutConst : Ty → Ty
  | bool _ => bool false
  | bit _ => bit false
  | duration _ => duration false
  | int w _ => int w false
  | uint w _ => uint w false
  | float w _ => float w false
  | angle w _ => angle w false
  | complex w _ => complex w false
  | t => t

/-- Whether a value of the first type may stand where the second is declared. The first
matching rule decides. -/
def assignableTo : Ty → Ty → Bool
  | undefined, _ | _, undefined => true
  | duration _, duration _ => true
  | port, port | frame, frame | waveform, waveform | qubit, qubit => true
  | array e _, waveform => e.isNumeric
  | array a n, array b m => n == m && assignableTo a b
  | complex .., complex .. => true
  | complex .., _ => false
  | void, void => true
  | x, y => x.isNumeric && y.isNumeric

/-- Whether the type is a `complex`, `float`, `angle` or `uint` scalar, in that order of
precedence for promotion. -/
def isComplex : Ty → Bool | complex .. => true | _ => false
/-- Whether the type is a `float` scalar. -/
def isFloat : Ty → Bool | float .. => true | _ => false
/-- Whether the type is an `angle` scalar. -/
def isAngle : Ty → Bool | angle .. => true | _ => false
/-- Whether the type is a `uint` scalar. -/
def isUInt : Ty → Bool | uint .. => true | _ => false
/-- Whether the type is `duration`. -/
def isDuration : Ty → Bool | duration _ => true | _ => false

/-- The type of an arithmetic result; constant only when both operands are. -/
def promote (a b : Ty) : Ty :=
  let c := a.isConst && b.isConst
  if a == undefined || b == undefined then undefined
  else if a.isDuration || b.isDuration then duration c
  else if a.isComplex || b.isComplex then complex none c
  else if a.isFloat || b.isFloat then float none c
  else if a.isAngle || b.isAngle then angle none c
  else if a.isUInt && b.isUInt then uint none c
  else if a.isNumeric && b.isNumeric then int none c
  else if a == waveform || b == waveform then waveform
  else undefined

/-- A scalar name with its optional width. -/
def withWidth (name : String) : Option Nat → String
  | some w => name ++ "[" ++ toString w ++ "]"
  | none => name

/-- Source text of a type, such as `const int[32]` or `array[float, 4]`. -/
def text : Ty → String
  | t@(bool _) => (if t.isConst then "const " else "") ++ "bool"
  | t@(bit _) => (if t.isConst then "const " else "") ++ "bit"
  | t@(int w _) => (if t.isConst then "const " else "") ++ withWidth "int" w
  | t@(uint w _) => (if t.isConst then "const " else "") ++ withWidth "uint" w
  | t@(float w _) => (if t.isConst then "const " else "") ++ withWidth "float" w
  | t@(angle w _) => (if t.isConst then "const " else "") ++ withWidth "angle" w
  | t@(complex w _) => (if t.isConst then "const " else "") ++ withWidth "complex" w
  | t@(duration _) => (if t.isConst then "const " else "") ++ "duration"
  | array e n => "array[" ++ text e ++ ", " ++ toString n ++ "]"
  | port => "port"
  | frame => "frame"
  | waveform => "waveform"
  | qubit => "qubit"
  | void => "void"
  | undefined => "undefined"

instance : ToString Ty := ⟨text⟩

/-- Reads a width `[n]` or nothing. -/
def readWidth (s : String) : Option (Option Nat) :=
  if s.isEmpty then some none
  else if s.startsWith "[" && s.endsWith "]" then
    (((s.drop 1).dropEnd 1).toString.toNat?).map some
  else none

/-- Reads a scalar type name with optional width and a `const` flag. -/
def readScalar (s : String) (c : Bool) : Option Ty :=
  let widthed (name : String) (mk : Option Nat → Bool → Ty) : Option Ty :=
    if s.startsWith name then (readWidth (s.drop name.length).toString).map (mk · c) else none
  if s == "bool" then some (bool c)
  else if s == "bit" then some (bit c)
  else if s == "duration" then some (duration c)
  else
    (widthed "uint" uint).orElse fun _ =>
    (widthed "int" int).orElse fun _ =>
    (widthed "float" float).orElse fun _ =>
    (widthed "angle" angle).orElse fun _ =>
    widthed "complex" complex

/-- Reads the source text of a type, the inverse of `text`. Fuel bounds the nesting of
arrays. -/
def readAt : Nat → String → Option Ty
  | 0, _ => none
  | fuel + 1, s =>
    if s == "port" then some port
    else if s == "frame" then some frame
    else if s == "waveform" then some waveform
    else if s == "qubit" then some qubit
    else if s == "void" then some void
    else if s == "undefined" then some undefined
    else if s.startsWith "array[" && s.endsWith "]" then
      let inner := ((s.drop 6).dropEnd 1).toString
      -- the length follows the last ", "
      match (inner.splitOn ", ").reverse with
      | len :: elemParts@(_ :: _) =>
        match len.toNat?, readAt fuel (", ".intercalate elemParts.reverse) with
        | some n, some e => some (array e n)
        | _, _ => none
      | _ => none
    else if s.startsWith "const " then readScalar (s.drop 6).toString true
    else readScalar s false

/-- Reads the source text of a type. -/
def read? (s : String) : Option Ty := readAt (s.length + 1) s

end Ty

end PulseCompiler
