set_option autoImplicit false

/-!
# Sequencer cores

A core is one sequencer of one instrument, and the unit a program is split into. Its kind
says what it can do: an output core only plays, an input core also captures, and a mixed
core does both on an instrument that has cores of both kinds.

Cores are ordered by instrument name, then index, then kind, so that programs split across
cores come out in a fixed order.
-/

namespace PulseCompiler

/-- What a core can do. -/
inductive CoreKind where
  | output | input | mixed
  deriving Repr, DecidableEq, Inhabited

namespace CoreKind

/-- The kind's name in text and reports. -/
def name : CoreKind → String
  | output => "output"
  | input => "input"
  | mixed => "mixed"

/-- The kind's name in setup files and serialized setups. -/
def title : CoreKind → String
  | output => "Output"
  | input => "Input"
  | mixed => "Mixed"

/-- The names a setup file may give a kind: its title, its name, and the sequencer types
that have it. -/
def aliases : CoreKind → List String
  | output => ["Output", "HD", "SG", "output"]
  | input => ["Input", "QA", "input"]
  | mixed => ["Mixed", "QC", "mixed"]

/-- Every kind, in order. -/
def all : List CoreKind := [output, input, mixed]

/-- Only cores with an input can capture. -/
def canCapture : CoreKind → Bool
  | output => false
  | _ => true

/-- Position of a kind in the order output, input, mixed. -/
def rank : CoreKind → Nat
  | output => 0
  | input => 1
  | mixed => 2

end CoreKind

/-- One sequencer core of one instrument. -/
structure Core where
  instrument : String
  index : Nat
  kind : CoreKind
  deriving Repr, DecidableEq, Inhabited

namespace Core

/-- `(instrument, index, kind)`. -/
def text (c : Core) : String :=
  "(" ++ c.instrument ++ ", " ++ toString c.index ++ ", " ++ c.kind.name ++ ")"

/-- Whether a core comes before another: by instrument, then index, then kind. -/
def lt (a b : Core) : Bool :=
  a.instrument < b.instrument ||
    (a.instrument == b.instrument &&
      (a.index < b.index || (a.index == b.index && a.kind.rank < b.kind.rank)))

/-- Inserts a core into a list ordered by `lt`, once. -/
def insertOrdered (c : Core) : List Core → List Core
  | [] => [c]
  | d :: rest =>
    if lt c d then c :: d :: rest
    else if c == d then d :: rest
    else d :: insertOrdered c rest

/-- The distinct cores of a list, in order. -/
def ordered (cs : List Core) : List Core := cs.foldl (fun acc c => insertOrdered c acc) []

end Core

end PulseCompiler
