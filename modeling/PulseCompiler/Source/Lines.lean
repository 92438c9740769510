import PulseCompiler.Text.Width
set_option autoImplicit false

/-!
# Lines of source text

Diagnostics point into program text by character offsets. The text is cut into lines after
each line terminator (carriage return, line feed, vertical tab, form feed, next line, line
separator, paragraph separator; a carriage return followed by a line feed ends one line). A
line keeps its terminator; text that ends with a terminator has no empty line after it, and
empty text is one empty line.

When a line is drawn, a tab reaches the next multiple of four columns counted in characters,
other blanks take one column, control characters one, and every other character its display
width: two for wide characters, none for combining marks.
-/

namespace PulseCompiler

/-- One line of source text: its offset in characters and its characters, terminator
included. -/
structure SourceLine where
  offset : Nat
  chars : List Char
  deriving Repr, Inhabited

namespace SourceLine

/-- The number of characters, terminator included. -/
def length (l : SourceLine) : Nat := l.chars.length

/-- The offset just past the line. -/
def stop (l : SourceLine) : Nat := l.offset + l.length

/-- Whether an offset lies on the line. -/
def holds (l : SourceLine) (offset : Nat) : Bool := l.offset ≤ offset && offset < l.stop

end SourceLine

/-- Characters that end a line. -/
def isLineEnd (c : Char) : Bool :=
  c == '\r' || c == '\n' || c == '\x0B' || c == '\x0C' || c == '\u0085' || c == '\u2028' ||
    c == '\u2029'

/-- Characters that count as blank: the Unicode white space characters. -/
def isBlank (c : Char) : Bool :=
  c == ' ' || ('\t' ≤ c && c ≤ '\r') || c == '\u0085' || c == '\u00A0' || c == '\u1680' ||
    ('\u2000' ≤ c && c ≤ '\u200A') || c == '\u2028' || c == '\u2029' || c == '\u202F' ||
    c == '\u205F' || c == '\u3000'

/-- Cuts characters into lines, from an offset, the current line's characters gathered in
reverse. -/
def cutLines : List Char → Nat → List Char → List SourceLine
  | [], offset, current =>
    if current.isEmpty then [] else [⟨offset, current.reverse⟩]
  | '\r' :: '\n' :: rest, offset, current =>
    let line : SourceLine := ⟨offset, ('\n' :: '\r' :: current).reverse⟩
    line :: cutLines rest line.stop []
  | c :: rest, offset, current =>
    if isLineEnd c then
      let line : SourceLine := ⟨offset, (c :: current).reverse⟩
      line :: cutLines rest line.stop []
    else cutLines rest offset (c :: current)

/-- The lines of a text; empty text is one empty line. -/
def sourceLines (text : String) : List SourceLine :=
  match cutLines text.toList 0 [] with
  | [] => [⟨0, []⟩]
  | ls => ls

/-- The line an offset lies on, with its index and the offset's column, for offsets up to
the length of the text; an offset at the very end belongs to the last line. -/
def lineOf? (lines : List SourceLine) (offset : Nat) : Option (SourceLine × Nat × Nat) :=
  let total := (lines.getLast?.map SourceLine.stop).getD 0
  if offset ≤ total then
    let found := lines.zipIdx.foldl (fun acc (l, i) =>
      if l.offset ≤ offset then some (l, i) else acc) none
    found.map fun (l, i) => (l, i, offset - l.offset)
  else none

/-- How a character at a column is drawn: a tab as blanks up to the next multiple of four,
another blank as one blank, any other character as itself; and how many columns it takes, a
control character one. -/
def drawnWidth (c : Char) (col : Nat) : Char × Nat :=
  if c == '\t' then (' ', (col / 4 + 1) * 4 - col)
  else if isBlank c then (' ', 1)
  else (c, (displayWidth? c).getD 1)

/-- The characters of a line without its trailing blanks. -/
def SourceLine.trimmed (l : SourceLine) : List Char :=
  (l.chars.reverse.dropWhile isBlank).reverse

/-- The number of decimal digits of a number, one for zero. -/
def decimalDigits (n : Nat) : Nat := (toString n).length

end PulseCompiler
