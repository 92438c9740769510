import PulseCompiler.Number.Text
set_option autoImplicit false

/-!
# JSON documents

Setups, configurations and input values arrive as JSON, and reports leave as JSON. A number
keeps the form it was written in: a literal without fraction or exponent is an integer of any
size, any other literal is the double nearest to it. Objects keep their members in order;
the writers sort them by key, as maps with ordered keys do.
-/

namespace PulseCompiler

/-- A JSON document. -/
inductive Json where
  | null
  | bool (b : Bool)
  | int (n : Int)
  | float (x : Float)
  | str (s : String)
  | arr (items : List Json)
  | obj (members : List (String × Json))
  deriving Inhabited

namespace Json

/-- The member of an object under a key, the last one if the key repeats. -/
def get? (j : Json) (key : String) : Option Json :=
  match j with
  | .obj members => (members.reverse.find? (·.1 == key)).map (·.2)
  | _ => none

/-- Members of an object, none for other documents. -/
def members : Json → List (String × Json)
  | .obj ms => ms
  | _ => []

/-- A member that is absent or `null` counts as absent. -/
def field? (j : Json) (key : String) : Option Json :=
  match j.get? key with
  | some .null => none
  | other => other

/-- Escapes a string for a JSON string literal: quote, backslash and control characters. -/
def escape (s : String) : String :=
  s.foldl (fun acc c =>
    acc ++ match c with
      | '"' => "\\\""
      | '\\' => "\\\\"
      | '\n' => "\\n"
      | '\r' => "\\r"
      | '\t' => "\\t"
      | '\x08' => "\\b"
      | '\x0c' => "\\f"
      | c =>
        if c.toNat < 0x20 then
          let h := Nat.toDigits 16 c.toNat
          "\\u" ++ String.ofList (List.replicate (4 - h.length) '0' ++ h)
        else String.singleton c) ""

/-- A quoted string literal. -/
def quote (s : String) : String := "\"" ++ escape s ++ "\""

/-- Doubles in JSON text: shortest digits, a point always, scientific notation outside
`[-5, 16)` with an exponent that has a sign only when negative (`1e16`, `2.5e-7`); a JSON
document has no text for `NaN` or the infinities, which become `null`. -/
def numberLayout : Layout := ⟨some (-5, 16), 1, false, "null", "null"⟩

/-- Text of a double in a document. -/
def floatText (x : Float) : String :=
  match FloatShape.ofFloat x with
  | .finite b => numberLayout.finite b
  | _ => "null"

/-- Inserts a member into a list sorted by key, after members of equal key. -/
def insertSorted (m : String × Json) : List (String × Json) → List (String × Json)
  | [] => [m]
  | n :: rest => if m.1 < n.1 then m :: n :: rest else n :: insertSorted m rest

/-- Members sorted by key, stably. -/
def sortMembers (ms : List (String × Json)) : List (String × Json) :=
  ms.foldl (fun acc m => insertSorted m acc) []

mutual
/-- The same document with the members of every object sorted by key. -/
def sorted : Json → Json
  | .arr items => .arr (sortedItems items)
  | .obj ms => .obj (sortMembers (sortedMembers ms))
  | j => j

/-- Items with their members sorted. -/
def sortedItems : List Json → List Json
  | [] => []
  | x :: rest => sorted x :: sortedItems rest

/-- Members with their values' members sorted. -/
def sortedMembers : List (String × Json) → List (String × Json)
  | [] => []
  | (k, v) :: rest => (k, sorted v) :: sortedMembers rest
end

/-- Inserts a member into a list sorted by key; a member of equal key is replaced. -/
def insertMember (m : String × Json) : List (String × Json) → List (String × Json)
  | [] => [m]
  | n :: rest =>
    if m.1 < n.1 then m :: n :: rest
    else if m.1 == n.1 then m :: rest
    else n :: insertMember m rest

mutual
/-- The document as a map with ordered keys holds it: members sorted by key, and of
repeated keys only the last. -/
def normalized : Json → Json
  | .arr items => .arr (normalizedItems items)
  | .obj ms => .obj ((normalizedMembers ms).foldl (fun acc m => insertMember m acc) [])
  | j => j

/-- Items, each normalized. -/
def normalizedItems : List Json → List Json
  | [] => []
  | x :: rest => normalized x :: normalizedItems rest

/-- Members with their values normalized. -/
def normalizedMembers : List (String × Json) → List (String × Json)
  | [] => []
  | (k, v) :: rest => (k, normalized v) :: normalizedMembers rest
end

mutual
/-- Appends the compact text of a document to `acc`, members in the order they are held.
Text is only ever added at the end, so writing takes time linear in its length. -/
def compactInto (acc : String) : Json → String
  | .null => acc ++ "null"
  | .bool b => acc ++ (if b then "true" else "false")
  | .int n => acc ++ toString n
  | .float x => acc ++ floatText x
  | .str s => acc ++ quote s
  | .arr items => compactItemsInto (acc ++ "[") items ++ "]"
  | .obj ms => compactMembersInto (acc ++ "\x7b") ms ++ "\x7d"

/-- Appends comma-separated items. -/
def compactItemsInto (acc : String) : List Json → String
  | [] => acc
  | [x] => compactInto acc x
  | x :: rest => compactItemsInto (compactInto acc x ++ ",") rest

/-- Appends comma-separated members. -/
def compactMembersInto (acc : String) : List (String × Json) → String
  | [] => acc
  | [(k, v)] => compactInto (acc ++ quote k ++ ":") v
  | (k, v) :: rest => compactMembersInto (compactInto (acc ++ quote k ++ ":") v ++ ",") rest
end

/-- Compact text, members in the order they are held. -/
def compactText (j : Json) : String := compactInto "" j

/-- Compact text with members sorted by key. -/
def compact (j : Json) : String := compactText j.sorted

/-- Indentation of `depth` levels of two spaces. -/
def indent (depth : Nat) : String := String.ofList (List.replicate (2 * depth) ' ')

mutual
/-- Appends indented text with two spaces a level; empty arrays and objects stay on one
line. -/
def prettyInto (acc : String) (depth : Nat) : Json → String
  | .arr [] => acc ++ "[]"
  | .obj [] => acc ++ "\x7b\x7d"
  | .arr items => prettyItemsInto (acc ++ "[\n") (depth + 1) items ++ "\n" ++ indent depth ++ "]"
  | .obj ms =>
    prettyMembersInto (acc ++ "\x7b\n") (depth + 1) ms ++ "\n" ++ indent depth ++ "\x7d"
  | j => compactInto acc j

/-- Appends items, one a line. -/
def prettyItemsInto (acc : String) (depth : Nat) : List Json → String
  | [] => acc
  | [x] => prettyInto (acc ++ indent depth) depth x
  | x :: rest => prettyItemsInto (prettyInto (acc ++ indent depth) depth x ++ ",\n") depth rest

/-- Appends members, one a line. -/
def prettyMembersInto (acc : String) (depth : Nat) : List (String × Json) → String
  | [] => acc
  | [(k, v)] => prettyInto (acc ++ indent depth ++ quote k ++ ": ") depth v
  | (k, v) :: rest =>
    prettyMembersInto (prettyInto (acc ++ indent depth ++ quote k ++ ": ") depth v ++ ",\n")
      depth rest
end

/-- Indented text with members sorted by key. -/
def pretty (j : Json) : String := prettyInto "" 0 j.sorted

end Json

end PulseCompiler
