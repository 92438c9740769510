import PulseCompiler.Timeline.Report
import PulseCompiler.Analysis.Error
import PulseCompiler.Program.Stmt
import Std.Data.HashMap
set_option autoImplicit false

/-!
# Command tables

A sequencer plays waveforms by their index in a table of fixed size. Waveforms with the same
key have the same content and share one entry; a new key takes the next index. A table never
holds more entries than its capacity, nor more than indices fit in 16 bits.

`Program.assignResources` gives table entries to the waveforms of a core's program in program
order: the values each waveform declaration took (the declaration keeps the index of its first
value) and the waveforms each play or capture used.
-/

namespace PulseCompiler

/-- An entry of a command table: its index, the waveform's key and its length. -/
structure CommandEntry where
  index : Nat
  key : String
  samples : Nat
  deriving Repr, DecidableEq, Inhabited

/-- A command table: its capacity and entries in index order. -/
structure CommandTable where
  capacity : Nat
  entries : Array CommandEntry := #[]
  deriving Repr, Inhabited

/-- Indices of a table fit in 16 bits. -/
def CommandTable.indexLimit : Nat := Nat.pow 2 16

namespace CommandTable

/-- An empty table of a capacity. -/
def empty (capacity : Nat) : CommandTable := ⟨capacity, #[]⟩

/-- The number of entries. -/
def size (t : CommandTable) : Nat := t.entries.size

/-- The index of a key. -/
def get? (t : CommandTable) (key : String) : Option Nat :=
  (t.entries.find? (·.key == key)).map (·.index)

/-- The index of a waveform, adding an entry when its key is new; a full table is an error
at the given range. -/
def insert (t : CommandTable) (w : WaveformInfo) (range : TextRange) :
    Except SemanticError (Nat × CommandTable) :=
  match t.get? w.key with
  | some i => .ok (i, t)
  | none =>
    if t.size ≥ t.capacity || t.size ≥ indexLimit then .error ⟨.tableFull t.capacity, range⟩
    else .ok (t.size, { t with entries := t.entries.push ⟨t.size, w.key, w.samples⟩ })

end CommandTable

/-- The distinct waveforms each play or capture used, by statement. -/
def playedWaveforms (clocks : ClockReport) : Std.HashMap Nat (List WaveformInfo) :=
  clocks.waveforms.foldl (fun acc e =>
    let seen := (acc.get? e.stmt).getD []
    if seen.contains e.waveform then acc else acc.insert e.stmt (seen ++ [e.waveform])) {}

/-- Inserts waveforms in order, returning the index of the first. -/
def CommandTable.insertAll (t : CommandTable) (ws : List WaveformInfo) (range : TextRange) :
    Except SemanticError (Option Nat × CommandTable) :=
  ws.foldlM (fun (acc : Option Nat × CommandTable) w => do
    let (i, t') ← acc.2.insert w range
    pure (acc.1.orElse fun _ => some i, t')) (none, t)

/-- What assigning table entries reads: the declared and played waveforms of the program the
core's program was split from. -/
structure WaveformUse where
  declared : List (Nat × List WaveformInfo)
  played : Std.HashMap Nat (List WaveformInfo)

mutual
/-- Assigns entries for a statement and the statements nested in it. -/
def Stmt.assign (use : WaveformUse) (t : CommandTable) :
    Stmt → Except SemanticError (Stmt × CommandTable)
  | .mk id range d kind =>
    match kind with
    | .waveform name value ti =>
      match use.declared.lookup id with
      | some ws => do
        let (first, t) ← t.insertAll ws range
        pure (.mk id range d (.waveform name value (first.orElse fun _ => ti)), t)
      | none => pure (.mk id range d kind, t)
    | .play .. | .capture .. => do
      let (_, t) ← t.insertAll ((use.played.get? id).getD []) range
      pure (.mk id range d kind, t)
    | _ => do
      let (k, t) ← StmtKind.assignBlocks use t kind
      pure (.mk id range d k, t)

/-- Assigns entries for the blocks of a statement kind. -/
def StmtKind.assignBlocks (use : WaveformUse) (t : CommandTable) :
    StmtKind → Except SemanticError (StmtKind × CommandTable)
  | .subroutine n ps r b => do
    let (b, t) ← Stmt.assignList use t b
    pure (.subroutine n ps r b, t)
  | .defcal n ps qs r b => do
    let (b, t) ← Stmt.assignList use t b
    pure (.defcal n ps qs r b, t)
  | .cal b => do
    let (b, t) ← Stmt.assignList use t b
    pure (.cal b, t)
  | .forLoop v ty it b => do
    let (b, t) ← Stmt.assignList use t b
    pure (.forLoop v ty it b, t)
  | .whileLoop c b => do
    let (b, t) ← Stmt.assignList use t b
    pure (.whileLoop c b, t)
  | .branch c th e => do
    let (th, t) ← Stmt.assignList use t th
    match e with
    | some b => do
      let (b, t) ← Stmt.assignList use t b
      pure (.branch c th (some b), t)
    | none => pure (.branch c th none, t)
  | k => pure (k, t)

/-- Assigns entries for the statements of a block in order. -/
def Stmt.assignList (use : WaveformUse) (t : CommandTable) :
    List Stmt → Except SemanticError (List Stmt × CommandTable)
  | [] => pure ([], t)
  | s :: rest => do
    let (s, t) ← Stmt.assign use t s
    let (rest, t) ← Stmt.assignList use t rest
    pure (s :: rest, t)
end

/-- Gives table entries to the waveforms of a core's program, using the report of the program
it was split from; declarations get the index of their first value. -/
def Program.assignResources (clocks : ClockReport) (capacity : Nat) (p : Program) :
    Except SemanticError (Program × CommandTable) :=
  Stmt.assignList ⟨clocks.declaredWaveforms, playedWaveforms clocks⟩ (CommandTable.empty capacity) p

end PulseCompiler
