import PulseCompiler.Number.Binary
import PulseCompiler.Number.Shortest
import PulseCompiler.Number.Text
import PulseCompiler.Number.Exact
import PulseCompiler.Text.CodeRanges
import PulseCompiler.Text.Printable
import PulseCompiler.Text.GraphemeExtend
import PulseCompiler.Text.Width
import PulseCompiler.Text.Escape
import PulseCompiler.Json.Value
import PulseCompiler.Json.Read
import PulseCompiler.Json.Decode
import PulseCompiler.Program.Type
import PulseCompiler.Program.Expr
import PulseCompiler.Program.Stmt
import PulseCompiler.Program.Printer
import PulseCompiler.Program.Fingerprint
import PulseCompiler.Generator
import PulseCompiler.Value.Basic
import PulseCompiler.Program.Builtin
import PulseCompiler.Value.Eval
import PulseCompiler.Analysis.Overload
import PulseCompiler.Number.Read
import PulseCompiler.Analysis.Scope
import PulseCompiler.Analysis.Error
import PulseCompiler.Analysis.Checker
import PulseCompiler.Timeline.Clocks
import PulseCompiler.Timeline.Event
import PulseCompiler.Timing.Warning
import PulseCompiler.Timing.Check
import PulseCompiler.Timeline.Report
import PulseCompiler.Timeline.Resolve
import PulseCompiler.Report
import PulseCompiler.Setup.Core
import PulseCompiler.Setup.Config
import PulseCompiler.Split
import PulseCompiler.Elimination
import PulseCompiler.CommandTable
import PulseCompiler.Program.Inputs
import PulseCompiler.Compile.Config
import PulseCompiler.Compile.Compilation
import PulseCompiler.Compile.Cache
import PulseCompiler.Source.Lines
import PulseCompiler.Source.Report
import PulseCompiler.Compile.Print
import PulseCompiler.Demo
import PulseCompiler.Cli.Similarity
import PulseCompiler.Cli.Spec
import PulseCompiler.Cli.Parse
import PulseCompiler.Cli.Outline
import PulseCompiler.Cli.Run
import PulseCompiler.Main
import PulseCompiler.Proofs.Replay.Annotation
import PulseCompiler.Proofs.Replay.Oblivious
import PulseCompiler.Proofs.Replay.Simulation
import PulseCompiler.Proofs.Replay.Statements
import PulseCompiler.Proofs.Replay.Resolved
import PulseCompiler.Proofs.Timing.Clocks
import PulseCompiler.Proofs.Timing.Depth
import PulseCompiler.Proofs.Timing.Effects
import PulseCompiler.Proofs.Analysis.ScopeTable
import PulseCompiler.Proofs.Analysis.Contract
import PulseCompiler.Proofs.Analysis.Placement
import PulseCompiler.Proofs.Analysis.Lexical
import PulseCompiler.Proofs.Analysis.Resolution
import PulseCompiler.Proofs.Elimination.FixedPoint
import PulseCompiler.Proofs.CommandTable.Assignment
import PulseCompiler.Proofs.Analysis.Numbering
import PulseCompiler.Proofs.Split.Faithful
import PulseCompiler.Proofs.Analysis.Hiding
import PulseCompiler.Proofs.Elimination.References
import PulseCompiler.Proofs.Value.Integers
import PulseCompiler.Proofs.Timing.Ranges
import PulseCompiler.Proofs.Analysis.Overloads
import PulseCompiler.Proofs.Analysis.Mangling
import PulseCompiler.Proofs.Report.LoopNests
import PulseCompiler.Proofs.Timing.Forward
