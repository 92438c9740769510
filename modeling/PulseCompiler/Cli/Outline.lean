import PulseCompiler.Text.Escape
set_option autoImplicit false

/-!
# Indented listings of values

Reports are shown as an indented listing: a record is its name and its fields one a line, a
list its items one a line, a map its entries one a line, and a wrapped value such as `Some(8)`
its contents on a line of their own. Each level is indented by four spaces and every field,
item and entry ends with a comma. Empty lists and maps stay on one line, as `[]` and `{}`.

Text is shown quoted, as `quotedText` writes it.
-/

namespace PulseCompiler

/-- A value to be listed. -/
inductive Outline where
  | token (text : String)
  | record (name : String) (fields : List (String × Outline))
  | list (items : List Outline)
  | map (entries : List (Outline × Outline))
  | wrap (name : String) (inner : Outline)
  deriving Inhabited

namespace Outline

/-- Indentation of `depth` levels. -/
def indentAt (depth : Nat) : String := String.ofList (List.replicate (4 * depth) ' ')

mutual
/-- The listing of a value whose first line is already indented to `depth`. -/
def render (depth : Nat) : Outline → String
  | token t => t
  | record n [] => n
  | record n fs => n ++ " \x7b\n" ++ renderFields (depth + 1) fs ++ indentAt depth ++ "\x7d"
  | list [] => "[]"
  | list xs => "[\n" ++ renderItems (depth + 1) xs ++ indentAt depth ++ "]"
  | map [] => "\x7b\x7d"
  | map es => "\x7b\n" ++ renderEntries (depth + 1) es ++ indentAt depth ++ "\x7d"
  | wrap n x => n ++ "(\n" ++ indentAt (depth + 1) ++ render (depth + 1) x ++ ",\n" ++
      indentAt depth ++ ")"

/-- Fields one a line. -/
def renderFields (depth : Nat) : List (String × Outline) → String
  | [] => ""
  | (n, x) :: rest =>
    indentAt depth ++ n ++ ": " ++ render depth x ++ ",\n" ++ renderFields depth rest

/-- Items one a line. -/
def renderItems (depth : Nat) : List Outline → String
  | [] => ""
  | x :: rest => indentAt depth ++ render depth x ++ ",\n" ++ renderItems depth rest

/-- Entries one a line. -/
def renderEntries (depth : Nat) : List (Outline × Outline) → String
  | [] => ""
  | (k, v) :: rest =>
    indentAt depth ++ render depth k ++ ": " ++ render depth v ++ ",\n" ++ renderEntries depth rest
end

end Outline

/-- The listing of a value. -/
def Outline.text (x : Outline) : String := x.render 0

end PulseCompiler
