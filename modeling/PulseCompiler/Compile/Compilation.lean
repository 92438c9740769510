import PulseCompiler.Compile.Config
import PulseCompiler.Analysis.Checker
import PulseCompiler.Timeline.Resolve
import PulseCompiler.Report
import PulseCompiler.Split
import PulseCompiler.CommandTable
set_option autoImplicit false

/-!
# Compilations

Compiling a program for a setup runs, in order: substituting the supplied inputs, analysis,
resolving durations, checking the timing constraints, reporting whole-program figures, and
splitting across cores. Each core's program is then pruned by dead-code elimination, checked
against the timeline of the whole program (when the configuration asks), and given a command
table.

Compilation stops at the first error. The warnings found and the report made before it are
kept, but no core's program is; there is at most one error.
-/

namespace PulseCompiler

/-- The program of one core after elimination and table assignment. -/
structure CoreProgram where
  core : Core
  program : Program
  commandTable : CommandTable
  elimination : EliminationReport
  deriving Inhabited

/-- The errors and warnings of a compilation. -/
structure Diagnostics where
  errors : List SemanticError := []
  warnings : List TimingWarning := []
  deriving Inhabited

namespace Diagnostics

/-- Whether there is an error. -/
def anyErrors (d : Diagnostics) : Bool := !d.errors.isEmpty

/-- Whether there is a warning. -/
def anyWarnings (d : Diagnostics) : Bool := !d.warnings.isEmpty

/-- Whether there is neither. -/
def isEmpty (d : Diagnostics) : Bool := !d.anyErrors && !d.anyWarnings

end Diagnostics

/-- The result of compiling a program: the programs of the cores in core order (none when
there is an error), the program report, and the diagnostics. -/
structure Compilation where
  cores : List CoreProgram := []
  report : ProgramReport := {}
  diagnostics : Diagnostics := {}
  deriving Inhabited

/-- The program of a core, if the compilation has one. -/
def Compilation.core? (c : Compilation) (core : Core) : Option CoreProgram :=
  c.cores.find? (·.core == core)

/-- A compiler: a configuration and the waveform generators programs may call. -/
structure Compiler where
  config : CompilerConfig
  registry : Registry

namespace Compiler

/-- Fails when warnings are to be errors and there is one: the error points at the first. -/
def promoteWarnings (c : Compiler) (ws : List TimingWarning) : Except SemanticError Unit :=
  match c.config.warningsAsErrors, ws with
  | true, w :: _ => .error ⟨.warningsPromoted ws.length, w.range⟩
  | _, _ => .ok ()

/-- Runs a core's program again with its barriers held to the recorded times; every frame
must end where it ended in the whole program. -/
def verify (c : Compiler) (core : Core) (p : Program) (clocks : ClockReport) :
    Except SemanticError Unit := do
  let label := core.text
  let replayed ← p.replay c.registry c.config.sampleRate label
  if replayed.finalClocks.any fun (frame, t) => clocks.clock? frame != some t then
    throw ⟨.splitMismatch label, {}⟩

/-- Prunes, checks and assigns table entries to the program of one core. -/
def compileCore (c : Compiler) (clocks : ClockReport) (core : Core) (p : Program) :
    Except SemanticError CoreProgram := do
  let (p, elimination) := p.removeUnused c.config.elimination
  if c.config.verifySplit then c.verify core p clocks
  let (p, table) ← p.assignResources clocks c.config.commandTableCapacity
  pure ⟨core, p, table, elimination⟩

/-- Compiles a program that has not been analyzed for the cores of a setup. -/
def compile (c : Compiler) (p : Program) (setup : SetupConfig) (inputs : Inputs) :
    Compilation :=
  let fail (acc : Compilation) (e : SemanticError) : Compilation :=
    { acc with cores := [], diagnostics := { acc.diagnostics with errors := [e] } }
  match p.resolveInputs inputs with
  | .error e => fail {} e
  | .ok (p, _) =>
    match p.analyze c.registry with
    | .error e => fail {} e
    | .ok a =>
      match a.program.resolve c.registry c.config.sampleRate with
      | .error e => fail {} e
      | .ok (clocks, q) =>
        let warned : Compilation :=
          { diagnostics := { warnings := clocks.warnings ++ c.config.timing.check clocks.events } }
        match c.promoteWarnings warned.diagnostics.warnings with
        | .error e => fail warned e
        | .ok () =>
          let reported := { warned with report := ProgramReport.of q clocks }
          match q.splitByCore setup with
          | .error e => fail reported e
          | .ok parts =>
            match parts.mapM fun (core, part) => c.compileCore clocks core part with
            | .error e => fail reported e
            | .ok cores => { reported with cores := cores }

end Compiler

end PulseCompiler
