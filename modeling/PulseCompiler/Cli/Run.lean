import PulseCompiler.Cli.Parse
import PulseCompiler.Cli.Outline
import PulseCompiler.Compile.Compilation
import PulseCompiler.Program.Printer
set_option autoImplicit false

/-!
# Running the command line

`print` shows a built-in program. `compile` reads the setup, the input values and the
configuration, each from its file when one is named (the setup defaults to two instruments),
compiles the program, and prints:

* on standard error, each error and then each warning on a line of its own;
* when there is no error, the program report and for each core its program, what elimination
  removed and its command table, either as an indented listing or as one JSON document.

A file that cannot be read or does not hold what it should ends the run with its complaint on
standard error. Runs with a complaint or a compile error fail with status 1.
-/

namespace PulseCompiler

/-- The contents of the files a run may read, by path; `none` for a file that cannot be
read. -/
abbrev FileLookup := String → Option String

/-- The complaint of a missing file. -/
def noSuchFile : String := "No such file or directory (os error 2)"

/-- The listing of a program report. -/
def ProgramReport.outline (r : ProgramReport) : Outline :=
  .record "ProgramReport" [
    ("shots", .record "ShotsSignature" [
      ("shots", .token (toString r.shots.shots)),
      ("steps", .list (r.shots.steps.map fun n => .token (toString n)))]),
    ("repetitions", .token (toString r.repetitions)),
    ("frame_elapsed",
      .map (r.frameElapsed.map fun (f, t) => (.token (quotedText f), .token (toString t)))),
    ("max_measure_delay", match r.maxMeasureDelay with
      | some n => .wrap "Some" (.token (toString n))
      | none => .token "None")]

/-- A program report as JSON. -/
def ProgramReport.toJson (r : ProgramReport) : Json :=
  .obj [("shots", .obj [("shots", .int r.shots.shots),
      ("steps", .arr (r.shots.steps.map fun (n : Nat) => Json.int n))]),
    ("repetitions", .int r.repetitions),
    ("frame_elapsed", .obj (r.frameElapsed.map fun (f, t) => (f, Json.int t))),
    ("max_measure_delay", match r.maxMeasureDelay with
      | some n => .int n
      | none => .null)]

/-- A core as JSON. -/
def Core.toJson (c : Core) : Json :=
  .obj [("instrument", .str c.instrument), ("index", .int c.index), ("kind", .str c.kind.title)]

/-- An elimination report as JSON. -/
def EliminationReport.toJson (r : EliminationReport) : Json :=
  .obj [("passes", .int r.passes), ("removed", .arr (r.removed.map .str)),
    ("converged", .bool r.converged)]

/-- A command table as JSON. -/
def CommandTable.toJson (t : CommandTable) : Json :=
  .obj [("capacity", .int t.capacity),
    ("entries", .arr (t.entries.toList.map fun e =>
      .obj [("index", .int e.index), ("waveform", .str e.key), ("samples", .int e.samples)]))]

/-- What the compilation of a core shows as JSON. -/
def CoreProgram.toJson (c : CoreProgram) : Json :=
  .obj [("core", c.core.toJson), ("elimination", c.elimination.toJson),
    ("command_table", c.commandTable.toJson)]

/-- A number right-aligned in `width` columns. -/
def padLeft (width : Nat) (s : String) : String := spaces (width - s.length) ++ s

/-- What the compilation of a core shows as a listing: the core, its program, what was
removed, and its table entries, then a blank line. -/
def CoreProgram.listing (c : CoreProgram) : String :=
  "// " ++ c.core.text ++ "\n" ++ Program.text c.program ++
    "// removed: " ++ quotedTexts c.elimination.removed ++ "\n" ++
    String.join (c.commandTable.entries.toList.map fun e =>
      "// " ++ padLeft 4 (toString e.index) ++ " " ++ e.key ++ " (" ++ toString e.samples ++
        " samples)\n") ++ "\n"

/-- What a compilation prints: diagnostics on standard error, and when there is no error the
report on standard output. -/
def Compilation.outcome (c : Compilation) (json : Bool) : Outcome :=
  let d := c.diagnostics
  let stderr := String.join (d.errors.map fun e => "error: " ++ e.message ++ "\n") ++
    String.join (d.warnings.map fun w => "warning: " ++ w.message ++ "\n")
  if d.anyErrors then { status := 1, stderr }
  else
    let stdout :=
      if json then
        let doc := Json.obj [("report", c.report.toJson), ("cores", .arr (c.cores.map (·.toJson)))]
        doc.pretty ++ "\n"
      else c.report.outline.text ++ "\n" ++ String.join (c.cores.map (·.listing))
    { status := 0, stdout, stderr }

/-- Reads what a compile request names, failing with the text of a complaint. -/
def CompileRequest.load (files : FileLookup) (r : CompileRequest) :
    Except String (SetupConfig × Inputs × CompilerConfig) := do
  let setup ← match r.setup with
    | some path => (SetupConfig.ofFile (files path)).mapError (·.message)
    | none => pure SetupConfig.demo
  let inputs ← match r.inputs with
    | some path =>
      match files path with
      | some text => (Inputs.ofText text).mapError (·.message)
      | none => throw noSuchFile
    | none => pure []
  let config ← match r.config with
    | some path => (CompilerConfig.ofFile (files path)).mapError (·.message)
    | none => pure {}
  pure (setup, inputs, config)

/-- Runs a command line read successfully. -/
def Invocation.run (files : FileLookup) : Invocation → Outcome
  | .print d => { status := 0, stdout := Program.text d.program }
  | .compile r =>
    match r.load files with
    | .error msg => { status := 1, stderr := msg ++ "\n" }
    | .ok (setup, inputs, config) =>
      (Compiler.compile ⟨config, .zi⟩ r.demo.program setup inputs).outcome r.json

/-- Runs the demo compiler on a command line. -/
def runCommandLine (files : FileLookup) (args : List String) : Outcome :=
  match readCommandLine args with
  | .error o => o
  | .ok i => i.run files

end PulseCompiler
