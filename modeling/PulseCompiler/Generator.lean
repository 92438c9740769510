import PulseCompiler.Program.Type
set_option autoImplicit false

/-!
# Waveform generators

A generator makes a waveform at compile time from constant arguments. Its signature lists
named, typed parameters; the parameter `samples`, or else the first one, gives the length of
the waveform. The registry used by default holds the generators of the ZI sequencer together
with `placeholder`, whose content is only known at run time.
-/

namespace PulseCompiler

/-- Parameter names and types, and the return type, of something callable. -/
structure Signature where
  params : List (String × Ty)
  ret : Option Ty
  deriving Repr, DecidableEq, Inhabited

namespace Signature

/-- Number of parameters. -/
def arity (s : Signature) : Nat := s.params.length

/-- Position of the parameter of a name. -/
def indexOf? (s : Signature) (name : String) : Option Nat :=
  s.params.findIdx? (·.1 == name)

/-- `(name: type, ...) -> ret`, or without the arrow when nothing is returned. -/
def text (s : Signature) : String :=
  "(" ++ ", ".intercalate (s.params.map fun (n, t) => n ++ ": " ++ t.text) ++ ")" ++
    match s.ret with
    | some t => " -> " ++ t.text
    | none => ""

end Signature

/-- A named waveform generator. -/
structure Generator where
  name : String
  signature : Signature
  deriving Repr, DecidableEq, Inhabited

/-- A generator returning a waveform, from its parameters. -/
def Generator.ofParams (name : String) (params : List (String × Ty)) : Generator :=
  ⟨name, ⟨params, some .waveform⟩⟩

/-- The name of the generator whose samples are supplied at run time. -/
def placeholderName : String := "placeholder"

/-- The name of the parameter giving a generated waveform's length. -/
def samplesParam : String := "samples"

/-- An ordered list of generators. -/
structure Registry where
  generators : List Generator
  deriving Repr, DecidableEq, Inhabited

namespace Registry

/-- No generators. -/
def empty : Registry := ⟨[]⟩

/-- The ZI sequencer's generators and `placeholder`. -/
def zi : Registry :=
  let int := Ty.int none false
  let float := Ty.float none false
  let samples := (samplesParam, int)
  ⟨[ .ofParams placeholderName [samples],
     .ofParams "zeros" [samples],
     .ofParams "ones" [samples],
     .ofParams "rect" [samples, ("amplitude", float)],
     .ofParams "gauss" [samples, ("amplitude", float), ("position", int), ("width", float)],
     .ofParams "drag" [samples, ("amplitude", float), ("position", int), ("width", float)],
     .ofParams "blackman" [samples, ("amplitude", float), ("alpha", float)],
     .ofParams "hamming" [samples, ("amplitude", float)],
     .ofParams "hann" [samples, ("amplitude", float)],
     .ofParams "sine"
       [samples, ("amplitude", float), ("phase_offset", float), ("n_periods", float)],
     .ofParams "cosine"
       [samples, ("amplitude", float), ("phase_offset", float), ("n_periods", float)],
     .ofParams "sinc" [samples, ("amplitude", float), ("position", int), ("beta", float)],
     .ofParams "ramp" [samples, ("start_level", float), ("end_level", float)],
     .ofParams "chirp"
       [samples, ("amplitude", float), ("start_freq", float), ("stop_freq", float)] ]⟩

/-- The registry used when none is given. -/
def default : Registry := zi

/-- The first generator of a name. -/
def get? (r : Registry) (name : String) : Option Generator :=
  r.generators.find? (·.name == name)

/-- Whether a generator of the name exists. -/
def contains (r : Registry) (name : String) : Bool := (r.get? name).isSome

/-- Number of generators. -/
def size (r : Registry) : Nat := r.generators.length

end Registry

end PulseCompiler
