import PulseCompiler.Compile.Compilation
import PulseCompiler.Program.Fingerprint
set_option autoImplicit false

/-!
# Compile caches

A cache keeps finished compilations under a key made of everything that decides them: the
program with all its annotations, the setup, the input values, the configuration and the
generators. A compilation with an error is not kept. The cache counts how often a request
was answered from it and how often it had to compile.
-/

namespace PulseCompiler

/-- Input values as JSON: booleans, integers, doubles and arrays of integers. -/
def Inputs.toJson (i : Inputs) : Json :=
  .obj (i.map fun (n, v) => (n, match v with
    | .bool b => .bool b
    | .int k => .int k
    | .float x => .float x
    | .bits vs => .arr (vs.map .int)))

/-- A configuration as JSON. -/
def CompilerConfig.toJson (c : CompilerConfig) : Json :=
  .obj [("sample_rate", .float c.sampleRate),
    ("timing", .obj [("minimum_length", .int c.timing.minimumLength),
      ("granularity", .int c.timing.granularity)]),
    ("command_table_capacity", .int c.commandTableCapacity),
    ("elimination", match c.elimination with
      | .fixedPoint => .str "fixed_point"
      | .bounded n => .obj [("bounded", .int n)]),
    ("warnings_as_errors", .bool c.warningsAsErrors), ("verify_split", .bool c.verifySplit)]

/-- What decides a compilation. -/
structure CacheKey where
  program : String
  setup : String
  inputs : String
  config : String
  registry : Registry
  deriving DecidableEq

/-- The key of a compile request. -/
def CacheKey.of (c : Compiler) (p : Program) (setup : SetupConfig) (inputs : Inputs) :
    CacheKey :=
  ⟨p.fingerprint, setup.toJson.compactText, inputs.toJson.compactText,
    c.config.toJson.compactText, c.registry⟩

/-- Finished compilations by key, with counts of hits and misses. -/
structure CompileCache where
  entries : List (CacheKey × Compilation) := []
  hits : Nat := 0
  misses : Nat := 0
  deriving Inhabited

namespace CompileCache

/-- The number of compilations kept. -/
def size (c : CompileCache) : Nat := c.entries.length

/-- Whether nothing is kept. -/
def isEmpty (c : CompileCache) : Bool := c.entries.isEmpty

/-- The compilation kept under a key. -/
def get? (c : CompileCache) (k : CacheKey) : Option Compilation :=
  (c.entries.find? (·.1 == k)).map (·.2)

/-- Forgets every compilation; the counts stay. -/
def clear (c : CompileCache) : CompileCache := { c with entries := [] }

/-- The compilation for a request: the kept one, counted as a hit, or a new one, counted as
a miss and kept when it has no error. -/
def compile (cache : CompileCache) (c : Compiler) (p : Program) (setup : SetupConfig)
    (inputs : Inputs) : Compilation × CompileCache :=
  let k := CacheKey.of c p setup inputs
  match cache.get? k with
  | some done => (done, { cache with hits := cache.hits + 1 })
  | none =>
    let done := c.compile p setup inputs
    let cache := { cache with misses := cache.misses + 1 }
    if done.diagnostics.anyErrors then (done, cache)
    else (done, { cache with entries := cache.entries ++ [(k, done)] })

end CompileCache

end PulseCompiler
