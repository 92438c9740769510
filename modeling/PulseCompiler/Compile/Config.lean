import PulseCompiler.Json.Decode
import PulseCompiler.Timing.Check
import PulseCompiler.Elimination
import PulseCompiler.Program.Inputs
set_option autoImplicit false

/-!
# Compiler configuration

Every setting has a default, so an empty object, or an empty array, is a configuration: two
billion samples a second, the default timing constraints, a command table of 1024 entries,
elimination to a fixed point, warnings kept as warnings, and split programs checked against
the whole. A configuration must have a positive, finite sample rate and a table capacity
between 1 and 65536, the number of 16-bit indices.

Input values are read from a JSON object of the same family of files: each value is a
boolean, a signed 64-bit integer, any other number, or an array of signed 64-bit integers,
whichever reads first.
-/

namespace PulseCompiler

/-- Default number of entries of a command table. -/
def defaultCapacity : Nat := 1024

/-- How programs are compiled. -/
structure CompilerConfig where
  sampleRate : Float := 2e9
  timing : TimingConfig := {}
  commandTableCapacity : Nat := defaultCapacity
  elimination : EliminationPolicy := .fixedPoint
  warningsAsErrors : Bool := false
  verifySplit : Bool := true
  deriving Repr, Inhabited

/-- Why a configuration cannot be used. -/
inductive ConfigError where
  | io (why : String)
  | malformed (why : String)
  | sampleRate (rate : Float)
  | capacity (capacity : Nat)
  deriving Repr, Inhabited

namespace ConfigError

/-- The name of the error's kind in reports. -/
def family : ConfigError → String
  | io _ => "Io"
  | malformed _ => "Json"
  | sampleRate _ => "SampleRate"
  | capacity _ => "Capacity"

/-- The message of an error. -/
def message : ConfigError → String
  | io w => "could not read configuration file: " ++ w
  | malformed w => "malformed configuration: " ++ w
  | sampleRate r => "sample rate must be positive, found " ++ Float.programText r
  | capacity n => "command table capacity must be between 1 and 65536, found " ++ toString n

end ConfigError

namespace CompilerConfig

/-- Reading timing constraints; both default. -/
def readTiming : Reader TimingConfig :=
  RecordSpec.read {
    name := "struct TimingConfig", start := {}
    fields := [
      { name := "minimum_length", required := false
        read := fun t => do pure { t with minimumLength := ← Reader.unsigned 64 "u64" } },
      { name := "granularity", required := false
        read := fun t => do pure { t with granularity := ← Reader.unsigned 64 "u64" } }] }

/-- Reading an elimination policy: `"fixed_point"` or `{"bounded": n}`. -/
def readPolicy : Reader EliminationPolicy :=
  Reader.enum [⟨["fixed_point"], .unit .fixedPoint⟩,
    ⟨["bounded"], .contents (EliminationPolicy.bounded <$> Reader.unsigned 64 "usize")⟩]

/-- Reading a configuration; every field defaults. -/
def read : Reader CompilerConfig :=
  RecordSpec.read {
    name := "struct CompilerConfig", start := {}
    fields := [
      { name := "sample_rate", required := false
        read := fun c => do pure { c with sampleRate := ← Reader.float } },
      { name := "timing", required := false
        read := fun c => do pure { c with timing := ← readTiming } },
      { name := "command_table_capacity", required := false
        read := fun c => do pure { c with commandTableCapacity := ← Reader.unsigned 64 "usize" } },
      { name := "elimination", required := false
        read := fun c => do pure { c with elimination := ← readPolicy } },
      { name := "warnings_as_errors", required := false
        read := fun c => do pure { c with warningsAsErrors := ← Reader.bool } },
      { name := "verify_split", required := false
        read := fun c => do pure { c with verifySplit := ← Reader.bool } }] }

/-- Checks the sample rate and the table capacity. -/
def validate (c : CompilerConfig) : Except ConfigError Unit := do
  if !(c.sampleRate > 0.0 && Float.finite c.sampleRate) then throw (.sampleRate c.sampleRate)
  if c.commandTableCapacity == 0 || c.commandTableCapacity > Nat.pow 2 16 then
    throw (.capacity c.commandTableCapacity)

/-- Reads and checks a configuration from JSON text. -/
def ofText (text : String) : Except ConfigError CompilerConfig := do
  let c ← match Reader.run read text with
    | .ok c => pure c
    | .error e => throw (.malformed (e.message text))
  c.validate
  pure c

/-- Reads and checks a configuration from the contents of a file, `none` when there is no
file. -/
def ofFile (contents : Option String) : Except ConfigError CompilerConfig :=
  match contents with
  | some text => ofText text
  | none => .error (.io "No such file or directory (os error 2)")

end CompilerConfig

/-- The input value a JSON value holds: the first of boolean, 64-bit integer, number and
array of 64-bit integers that it is. -/
def InputValue.ofJson? : Json → Option InputValue
  | .bool b => some (.bool b)
  | .int n => if n < Int.pow 2 63 then some (.int n) else some (.float (Float.ofInt n))
  | .float x => some (.float x)
  | .arr items =>
    (items.mapM fun (j : Json) => match j with
      | .int n => if n < Int.pow 2 63 then some n else none
      | _ => none).map .bits
  | _ => none

/-- Reading an input value. -/
def InputValue.read : Reader InputValue := Reader.untagged "InputValue" InputValue.ofJson?

/-- Reads input values from JSON text: an object from names to values. -/
def Inputs.ofText (text : String) : Except ConfigError Inputs :=
  match Reader.run (Reader.map InputValue.read) text with
  | .ok i => .ok i
  | .error e => .error (.malformed (e.message text))

end PulseCompiler
