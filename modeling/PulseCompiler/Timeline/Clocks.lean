import PulseCompiler.Program.Expr
set_option autoImplicit false

/-!
# Frame clocks

Every frame has a clock that counts samples. `FrameClocks` holds the clocks together with
the frames declared so far, in declaration order: `barrier;` and `delay[d];` without frames
act on exactly those. A clock may also exist for a frame that was advanced without being
declared; such a clock counts in `elapsedSince` but is not listed among the frames.

Clocks are 64-bit counters: `advance` refuses to step past `2^64 - 1` and leaves the clock
alone. A frame without a clock reads as `0`.
-/

namespace PulseCompiler

/-- Clocks of frames, in samples, with the frames declared so far. -/
structure FrameClocks where
  /-- Declared frames, in declaration order. -/
  frames : List SymbolId := []
  /-- The clock of every frame that has one, at most one entry per frame. -/
  times : List (SymbolId × Nat) := []
  deriving Repr, Inhabited

namespace FrameClocks

/-- No frames and no clocks. -/
def empty : FrameClocks := {}

/-- Clocks count below this bound. -/
def limit : Nat := Nat.pow 2 64

/-- The clock of a frame, if it has one. -/
def find? (c : FrameClocks) (frame : SymbolId) : Option Nat :=
  (c.times.find? (·.1 == frame)).map (·.2)

/-- Whether a frame has a clock. -/
def contains (c : FrameClocks) (frame : SymbolId) : Bool :=
  c.times.any (·.1 == frame)

/-- The clock of a frame; a frame without a clock is at `0`. -/
def get (c : FrameClocks) (frame : SymbolId) : Nat :=
  (c.find? frame).getD 0

/-- Sets the clock of a frame, adding a clock if it has none. -/
def set (c : FrameClocks) (frame : SymbolId) (time : Nat) : FrameClocks :=
  if c.contains frame then
    { c with times := c.times.map fun p => if p.1 == frame then (frame, time) else p }
  else { c with times := c.times ++ [(frame, time)] }

/-- Starts the clock of a new frame at zero. A frame that already has a clock keeps it and
is not listed again. -/
def declare (c : FrameClocks) (frame : SymbolId) : FrameClocks :=
  if c.contains frame then c
  else ⟨c.frames ++ [frame], c.times ++ [(frame, 0)]⟩

/-- Advances a frame by a number of samples, returning the time it started at, or nothing
when the clock would pass its bound. -/
def advance (c : FrameClocks) (frame : SymbolId) (samples : Nat) : Option (Nat × FrameClocks) :=
  let start := c.get frame
  if start + samples < limit then some (start, c.set frame (start + samples)) else none

/-- The latest clock among some frames, `0` for none. -/
def latest (c : FrameClocks) (frames : List SymbolId) : Nat :=
  frames.foldl (fun m f => Nat.max m (c.get f)) 0

/-- The earliest clock among some frames, `0` for none. -/
def earliest (c : FrameClocks) (frames : List SymbolId) : Nat :=
  match frames with
  | [] => 0
  | f :: rest => rest.foldl (fun m g => Nat.min m (c.get g)) (c.get f)

/-- Sets the clocks of some frames to one time. -/
def sync (c : FrameClocks) (frames : List SymbolId) (time : Nat) : FrameClocks :=
  frames.foldl (fun acc f => acc.set f time) c

/-- The largest advance of any clock since an earlier state; clocks that went back count
as `0`. -/
def elapsedSince (c earlier : FrameClocks) : Nat :=
  c.times.foldl (fun m p => Nat.max m (p.2 - earlier.get p.1)) 0

/-- Two states agree when they list the same frames and have the same clocks. -/
def agree (c d : FrameClocks) : Bool :=
  c.frames == d.frames && c.times.length == d.times.length &&
    c.times.all fun p => d.find? p.1 == some p.2

/-- The declared frames with their clocks, in declaration order. -/
def listed (c : FrameClocks) : List (SymbolId × Nat) :=
  c.frames.map fun f => (f, c.get f)

@[simp] theorem get_empty (frame : SymbolId) : empty.get frame = 0 := rfl

@[simp] theorem latest_nil (c : FrameClocks) : c.latest [] = 0 := rfl

@[simp] theorem earliest_nil (c : FrameClocks) : c.earliest [] = 0 := rfl

end FrameClocks

end PulseCompiler
