import PulseCompiler.Setup.Core
import PulseCompiler.Json.Decode
set_option autoImplicit false

/-!
# Instrument setups

A setup names the instruments of an experiment, assigns every port to a core of one
instrument, and may declare frames on ports. A frame lives on its port's core.

A setup is read from JSON laid out as

    { "Instruments": { "hdawg1": { "type": "HDAWG8", "serial": "DEV8835" } },
      "Ports": { "ch1": { "instrument": "hdawg1",
                          "core": { "type": "HD", "index": 1, "channels": [1] } } },
      "Frames": { "frame1": { "port": "ch1", "frequency": 5e9, "phase": 0.0 } } }

and then checked: every port names a known instrument, has channels and names a core the
instrument has, and every frame names a known port. Core indices count from 1 for each kind;
an instrument with cores of both kinds has as many mixed cores as the smaller count.
-/

namespace PulseCompiler

/-- Instrument models. -/
inductive InstrumentType where
  | hdawg8 | hdawg4 | shfsg8 | shfsg4 | shfqa4 | shfqa2 | shfqc6 | shfqc4 | shfqc2 | shfqc
  | pqsc
  deriving Repr, DecidableEq, Inhabited

namespace InstrumentType

/-- Every model with its name. -/
def named : List (String × InstrumentType) :=
  [("HDAWG8", hdawg8), ("HDAWG4", hdawg4), ("SHFSG8", shfsg8), ("SHFSG4", shfsg4),
   ("SHFQA4", shfqa4), ("SHFQA2", shfqa2), ("SHFQC6", shfqc6), ("SHFQC4", shfqc4),
   ("SHFQC2", shfqc2), ("SHFQC", shfqc), ("PQSC", pqsc)]

/-- The model's name. -/
def name (t : InstrumentType) : String :=
  ((named.find? (·.2 == t)).map (·.1)).getD ""

/-- How many cores of each kind the model has. -/
def cores : InstrumentType → List (Nat × CoreKind)
  | hdawg8 => [(4, .output)]
  | hdawg4 => [(2, .output)]
  | shfsg8 => [(8, .output)]
  | shfsg4 => [(4, .output)]
  | shfqa4 => [(4, .input)]
  | shfqa2 => [(2, .input)]
  | shfqc6 => [(6, .output), (1, .input)]
  | shfqc4 => [(4, .output), (1, .input)]
  | shfqc2 | shfqc => [(2, .output), (1, .input)]
  | pqsc => []

/-- The number of cores of a kind; mixed cores count as many as the smaller of the output
and input counts. -/
def coreCount (t : InstrumentType) (k : CoreKind) : Nat :=
  let count (wanted : CoreKind) : Nat :=
    ((t.cores.filter (·.2 == wanted)).map (·.1)).foldr (· + ·) 0
  match k with
  | .mixed => Nat.min (count .output) (count .input)
  | k => count k

/-- Whether the model has a core of a kind with an index, counting from 1. -/
def hasCore (t : InstrumentType) (k : CoreKind) (index : Nat) : Bool :=
  1 ≤ index && index ≤ t.coreCount k

end InstrumentType

/-- An instrument: its model and serial number. -/
structure Instrument where
  type : InstrumentType
  serial : String
  deriving Repr, DecidableEq, Inhabited

/-- The core a port is on, and the channels it uses. -/
structure CoreConfig where
  kind : CoreKind
  index : Nat
  channels : List Nat
  deriving Repr, DecidableEq, Inhabited

/-- A port: its instrument and core. -/
structure PortConfig where
  instrument : String
  core : CoreConfig
  deriving Repr, DecidableEq, Inhabited

/-- A frame: its port, frequency and phase. -/
structure FrameConfig where
  port : String
  frequency : Float := 0.0
  phase : Float := 0.0
  deriving Repr, Inhabited

/-- A setup; each table is ordered by name. -/
structure SetupConfig where
  instruments : List (String × Instrument) := []
  ports : List (String × PortConfig) := []
  frames : List (String × FrameConfig) := []
  deriving Repr, Inhabited

/-- Why a setup cannot be used. -/
inductive SetupError where
  /-- The setup file could not be read. -/
  | io (why : String)
  /-- The text is not a setup. -/
  | malformed (why : String)
  | unknownInstrument (port instrument : String)
  | unknownPort (frame port : String)
  | noChannels (port : String)
  | noSuchCore (instrument : String) (kind : CoreKind) (index : Nat)
  deriving Repr, Inhabited

namespace SetupError

/-- The name of the error's kind in reports. -/
def family : SetupError → String
  | io _ => "Io"
  | malformed _ => "Json"
  | unknownInstrument .. => "UnknownInstrument"
  | unknownPort .. => "UnknownPort"
  | noChannels _ => "NoChannels"
  | noSuchCore .. => "NoSuchCore"

/-- The message of an error. -/
def message : SetupError → String
  | io w => "could not read setup file: " ++ w
  | malformed w => "malformed setup: " ++ w
  | unknownInstrument p i => "port `" ++ p ++ "` refers to unknown instrument `" ++ i ++ "`"
  | unknownPort f p => "frame `" ++ f ++ "` refers to unknown port `" ++ p ++ "`"
  | noChannels p => "port `" ++ p ++ "` has no channels"
  | noSuchCore i k n =>
    "instrument `" ++ i ++ "` has no " ++ k.name ++ " core " ++ toString n

end SetupError

namespace SetupConfig

/-- Reading a core kind under any of its names. -/
def readKind : Reader CoreKind :=
  Reader.enum (CoreKind.all.map fun k => ⟨k.aliases, .unit k⟩)

/-- Reading an instrument model. -/
def readType : Reader InstrumentType :=
  Reader.enum (InstrumentType.named.map fun (n, t) => ⟨[n], .unit t⟩)

/-- Reading an instrument. -/
def readInstrument : Reader Instrument :=
  RecordSpec.read {
    name := "struct Instrument", start := ⟨.hdawg8, ""⟩
    fields := [
      { name := "type", read := fun i => do pure { i with type := ← readType } },
      { name := "serial", read := fun i => do pure { i with serial := ← Reader.string } }] }

/-- Reading a port's core. -/
def readCore : Reader CoreConfig :=
  RecordSpec.read {
    name := "struct CoreConfig", start := ⟨.output, 0, []⟩
    fields := [
      { name := "type", read := fun c => do pure { c with kind := ← readKind } },
      { name := "index", read := fun c => do pure { c with index := ← Reader.unsigned 32 "u32" } },
      { name := "channels"
        read := fun c => do
          pure { c with channels := ← Reader.list (Reader.unsigned 32 "u32") } }] }

/-- Reading a port. -/
def readPort : Reader PortConfig :=
  RecordSpec.read {
    name := "struct PortConfig", start := ⟨"", ⟨.output, 0, []⟩⟩
    fields := [
      { name := "instrument", read := fun p => do pure { p with instrument := ← Reader.string } },
      { name := "core", read := fun p => do pure { p with core := ← readCore } }] }

/-- Reading a frame; frequency and phase default to zero. -/
def readFrame : Reader FrameConfig :=
  RecordSpec.read {
    name := "struct FrameConfig", start := { port := "" }
    fields := [
      { name := "port", read := fun f => do pure { f with port := ← Reader.string } },
      { name := "frequency", required := false
        read := fun f => do pure { f with frequency := ← Reader.float } },
      { name := "phase", required := false
        read := fun f => do pure { f with phase := ← Reader.float } }] }

/-- Reading a setup; frames may be left out. -/
def read : Reader SetupConfig :=
  RecordSpec.read {
    name := "struct SetupConfig", start := {}
    fields := [
      { name := "Instruments"
        read := fun s => do pure { s with instruments := ← Reader.map readInstrument } },
      { name := "Ports", read := fun s => do pure { s with ports := ← Reader.map readPort } },
      { name := "Frames", required := false
        read := fun s => do pure { s with frames := ← Reader.map readFrame } }] }

/-- Checks that every reference resolves: ports in name order, then frames. -/
def validate (s : SetupConfig) : Except SetupError Unit := do
  for (name, port) in s.ports do
    let some inst := s.instruments.lookup port.instrument
      | throw (.unknownInstrument name port.instrument)
    if port.core.channels.isEmpty then throw (.noChannels name)
    if !inst.type.hasCore port.core.kind port.core.index then
      throw (.noSuchCore port.instrument port.core.kind port.core.index)
  for (name, frame) in s.frames do
    if (s.ports.lookup frame.port).isNone then throw (.unknownPort name frame.port)

/-- Reads and checks a setup from JSON text. -/
def ofText (text : String) : Except SetupError SetupConfig := do
  let s ← match Reader.run read text with
    | .ok s => pure s
    | .error e => throw (.malformed (e.message text))
  s.validate
  pure s

/-- Reads and checks a setup from the contents of a file, `none` when there is no file. -/
def ofFile (contents : Option String) : Except SetupError SetupConfig :=
  match contents with
  | some text => ofText text
  | none => .error (.io "No such file or directory (os error 2)")

/-- The core of a port. -/
def portCore (p : PortConfig) : Core := ⟨p.instrument, p.core.index, p.core.kind⟩

/-- The core a port, or a frame through its port, lives on. -/
def core? (s : SetupConfig) (name : String) : Option Core :=
  match s.ports.lookup name with
  | some p => some (portCore p)
  | none => do
    let f ← s.frames.lookup name
    let p ← s.ports.lookup f.port
    pure (portCore p)

/-- Every core some port is assigned to, in order. -/
def cores (s : SetupConfig) : List Core := Core.ordered (s.ports.map (portCore ·.2))

/-- The serial number of an instrument. -/
def serial? (s : SetupConfig) (instrument : String) : Option String :=
  (s.instruments.lookup instrument).map (·.serial)

/-- The setup used when none is given: an eight-channel signal generator with two output
cores for ports `ch1` and `ch2`, and a two-channel analyzer with an input core for `ro`. -/
def demo : SetupConfig :=
  { instruments := [("hdawg1", ⟨.hdawg8, "DEV8835"⟩), ("shfqa1", ⟨.shfqa2, "DEV12345"⟩)]
    ports := [("ch1", ⟨"hdawg1", ⟨.output, 1, [1]⟩⟩), ("ch2", ⟨"hdawg1", ⟨.output, 2, [1]⟩⟩),
      ("ro", ⟨"shfqa1", ⟨.input, 1, [1]⟩⟩)] }

/-- The setup as JSON, kinds and models by their names in setup files. -/
def toJson (s : SetupConfig) : Json :=
  .obj [("Instruments", .obj (s.instruments.map fun (n, i) =>
      (n, .obj [("type", .str i.type.name), ("serial", .str i.serial)]))),
    ("Ports", .obj (s.ports.map fun (n, p) =>
      (n, .obj [("instrument", .str p.instrument), ("core", .obj [("type", .str p.core.kind.title),
        ("index", .int p.core.index),
        ("channels", .arr (p.core.channels.map fun (c : Nat) => Json.int c))])]))),
    ("Frames", .obj (s.frames.map fun (n, f) =>
      (n, .obj [("port", .str f.port), ("frequency", .float f.frequency),
        ("phase", .float f.phase)])))]

end SetupConfig

end PulseCompiler
