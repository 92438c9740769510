import PulseCompiler.Source.Lines
set_option autoImplicit false

/-!
# Drawing reports against source text

A report is a headline (`Error: ...` or `Warning: ...`) and one label, `Near this point`,
over a span of characters of the program text. It is drawn as

    Error: undeclared identifier `g`
       ╭─[ prog.qasm:4:36 ]
     4 │    frame f = newframe(ch1, 5e9, 0);
       │                                   ╰─ Near this point

The location is the line and column of the span's start, counted from 1. The margin is as
wide as the number of the last line drawn. A span on one line is marked by a corner under its
middle character and a rule to its end; a span over several lines is marked in the margin,
from an arrow at its first line to an arrow at its last, and the rule under the last line runs
across the whole line. Lines strictly between are drawn as one gap. A span that does not lie
in the text leaves only the headline.
-/

namespace PulseCompiler

/-- How serious a report is. -/
inductive Severity where
  | error | warning
  deriving Repr, DecidableEq, Inhabited

/-- The headline word of a severity. -/
def Severity.name : Severity → String
  | .error => "Error"
  | .warning => "Warning"

/-- A report: severity, message, and the span of characters it points at. -/
structure SourceReport where
  severity : Severity
  message : String
  start : Nat
  stop : Nat
  deriving Repr, Inhabited

/-- The text of the label every report carries. -/
def nearLabel : String := "Near this point"

/-- `n` copies of a text. -/
def repeatText (n : Nat) (s : String) : String := String.join (List.replicate n s)

/-- `n` blanks. -/
def blanks (n : Nat) : String := repeatText n " "

/-- A line's text as drawn: tabs and other blanks widened to their columns. -/
def SourceLine.drawn (l : SourceLine) : String :=
  String.join (l.trimmed.zipIdx.map fun (c, col) =>
    let (shown, width) := drawnWidth c col
    if isBlank c then repeatText width (String.singleton shown) else String.singleton shown)

/-- A rule of `len` columns under a line, one cell a column: `cell col` gives the character of
a column and the character that fills the rest of a wide column. -/
def SourceLine.rule (l : SourceLine) (len : Nat) (cell : Nat → Char × Char) : String :=
  let chars := l.trimmed
  String.join ((List.range len).map fun col =>
    let width := match chars[col]? with
      | some c => (drawnWidth c col).2
      | none => 1
    let (first, rest) := cell col
    if width == 0 then ""
    else String.singleton first ++ repeatText (width - 1) (String.singleton rest))

/-- The margin of a line: its number, or a gap, then the bar. -/
def lineMargin (width : Nat) (number : Option Nat) : String :=
  match number with
  | some n => " " ++ blanks (width - decimalDigits n) ++ toString n ++ " │"
  | none => " " ++ blanks (width + 1) ++ "┆"

/-- The margin of a row that draws no source line. -/
def plainMargin (width : Nat) : String := " " ++ blanks (width + 1) ++ "│"

/-- Draws the lines of a report's span, from the first line of the span to the last; `gap`
says whether the previous line was drawn as a gap. -/
def drawLines (r : SourceReport) (multi : Bool) (width : Nat) :
    List (SourceLine × Nat) → Bool → String
  | [], _ => ""
  | (line, idx) :: rest, gap =>
    let last := r.stop - 1
    let isStart := line.holds r.start
    let isEnd := line.holds last
    let inline := !multi && line.offset ≤ r.start && r.stop ≤ line.stop
    let labelled := if multi then isStart || isEnd else inline
    let within := multi && r.start ≤ line.offset && line.offset < r.stop
    if !labelled && (gap || !within) then drawLines r multi width rest true
    else
      let isGap := !labelled
      let margin := lineMargin width (if isGap then none else some (idx + 1)) ++
        (if !multi then ""
         else if isStart then "╭▶"
         else if isEnd then "├▶"
         else (if isGap then "┆" else "│") ++ " ")
      let text := if isGap then "" else line.drawn
      let arrow :=
        if multi && isEnd && !isStart then
          plainMargin width ++ "╰─" ++ line.rule (line.length + 1) (fun _ => ('─', '─')) ++ " " ++
            nearLabel ++ "\n"
        else if inline then
          let col := (r.start + r.stop) / 2 - line.offset
          plainMargin width ++
            line.rule (r.stop - line.offset + 1) (fun c =>
              if c == col then ('╰', '─') else if c > col then ('─', '─') else (' ', ' ')) ++
            " " ++ nearLabel ++ "\n"
        else ""
      margin ++ text ++ "\n" ++ arrow ++ drawLines r multi width rest isGap

/-- Draws a report against the lines of a text, with the path that names the text. -/
def SourceReport.draw (r : SourceReport) (path : String) (lines : List SourceLine) : String :=
  let headline := r.severity.name ++ ": " ++ r.message ++ "\n"
  let lastOffset := if r.start ≥ r.stop then r.start else r.stop - 1
  match lineOf? lines r.start, lineOf? lines lastOffset with
  | some (_, first, col), some (_, final, _) =>
    let width := decimalDigits (final + 1)
    let location := blanks (width + 2) ++ "╭─[ " ++ path ++ ":" ++ toString (first + 1) ++ ":" ++
      toString (col + 1) ++ " ]\n"
    let shown := (lines.zipIdx.drop first).take (final + 1 - first)
    headline ++ location ++ drawLines r (first != final) width shown false
  | _, _ => headline

end PulseCompiler
