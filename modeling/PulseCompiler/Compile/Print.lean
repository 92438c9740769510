import PulseCompiler.Compile.Compilation
import PulseCompiler.Source.Report
set_option autoImplicit false

/-!
# Printing diagnostics

Errors and then warnings are drawn as reports against the program text, each followed by a
blank line. A report's span is its statement's range, widened to one character when empty,
since a label needs a character to point at.

Printing against a file reads the file only when there is something to draw, and once for
the errors and once for the warnings. A file that cannot be read stops the printing with a
failure: warnings are then not printed.
-/

namespace PulseCompiler

/-- A range as a span of at least one character. -/
def TextRange.span (r : TextRange) : Nat × Nat :=
  if r.stop > r.start then (r.start, r.stop) else (r.start, r.start + 1)

/-- A report of a severity and message over a range. -/
def SourceReport.ofRange (severity : Severity) (message : String) (r : TextRange) :
    SourceReport :=
  let (start, stop) := r.span
  ⟨severity, message, start, stop⟩

/-- The reports of diagnostics: errors, then warnings. -/
def Diagnostics.errorReports (d : Diagnostics) : List SourceReport :=
  d.errors.map fun e => SourceReport.ofRange .error e.message e.range

/-- The reports of the warnings. -/
def Diagnostics.warningReports (d : Diagnostics) : List SourceReport :=
  d.warnings.map fun w => SourceReport.ofRange .warning w.message w.range

/-- Draws reports against a text named by a path, each followed by a blank line. -/
def drawReports (path text : String) (reports : List SourceReport) : String :=
  let lines := sourceLines text
  String.join (reports.map fun r => r.draw path lines ++ "\n")

/-- The text named when a program text has no file. -/
def noFileName : String := "no file"

/-- Draws diagnostics against a program text; the path, if any, only names it. -/
def Diagnostics.print (d : Diagnostics) (text : String) (path : Option String) : String :=
  let name := path.getD noFileName
  drawReports name text d.errorReports ++ drawReports name text d.warningReports

/-- What printing against a file wrote, and why it stopped early, if it did. -/
structure Printed where
  text : String := ""
  failure : Option String := none
  deriving Repr, DecidableEq, Inhabited

/-- The failure to read a file that does not exist. -/
def missingFileMessage : String := "No such file or directory (os error 2)"

/-- Draws reports against a file's contents, reading it only when there is a report; `none`
contents mean the file does not exist. -/
def printReports (path : String) (contents : Option String) (reports : List SourceReport) :
    Printed :=
  match reports, contents with
  | [], _ => {}
  | _, none => { failure := some missingFileMessage }
  | _, some text => { text := drawReports path text reports }

/-- Draws diagnostics against a file named by a path, errors first; a failure on the errors
leaves the warnings out. -/
def Diagnostics.printForFile (d : Diagnostics) (path : String) (contents : Option String) :
    Printed :=
  let errors := printReports path contents d.errorReports
  match errors.failure with
  | some _ => errors
  | none =>
    let warnings := printReports path contents d.warningReports
    { warnings with text := errors.text ++ warnings.text }

end PulseCompiler
