import PulseCompiler.Json.Read
import PulseCompiler.Text.Escape
set_option autoImplicit false

/-!
# Reading typed values from JSON text

Setups, configurations and input values are read from JSON text straight into typed values,
in document order, so the first fault in the text is the one reported, whether it is a
syntax error or a value of the wrong kind. The rules are those of a typed reader:

* a record is an object, whose unknown members are skipped and whose known members may not
  repeat, or an array holding the fields in order; a field left out takes its default, and a
  field without one must be given;
* a map is an object with text keys, ordered by key, where of repeated keys the last wins;
* an enumeration is a string naming a variant, or an object whose only key names the variant
  and whose value holds the variant's contents (`null` for a variant without contents);
* an unsigned or signed integer must be an integer literal in range; a double may be
  written as any number;
* a value that may be of several kinds is read whole, then taken as the first kind it fits.

A complaint is placed where reading stood when it was found: after the offending value, or
for a complaint about a whole record or map (a missing field, a repeated one, a value fitting
no kind) after its closing brace, or before the next member if reading stopped early. Syntax
errors are placed where the text went wrong.
-/

namespace PulseCompiler

/-- Why a JSON value is not the expected typed value. -/
inductive DecodeError where
  | invalidType (found expected : String)
  | invalidValue (found expected : String)
  | invalidLength (length : Nat) (expected : String)
  | missingField (name : String)
  | duplicateField (name : String)
  | unknownVariant (name : String) (expected : List String)
  | noVariantMatches (enumName : String)
  deriving Inhabited

/-- A name in backquotes. -/
def backquoted (n : String) : String := "`" ++ n ++ "`"

/-- Names offered in place of a wrong one: one, two joined by `or`, or a list. -/
def oneOf : List String → String
  | [a] => backquoted a
  | [a, b] => backquoted a ++ " or " ++ backquoted b
  | ns => "one of " ++ ", ".intercalate (ns.map backquoted)

/-- The text of a decoding error. -/
def DecodeError.text : DecodeError → String
  | .invalidType f e => "invalid type: " ++ f ++ ", expected " ++ e
  | .invalidValue f e => "invalid value: " ++ f ++ ", expected " ++ e
  | .invalidLength n e => "invalid length " ++ toString n ++ ", expected " ++ e
  | .missingField n => "missing field " ++ backquoted n
  | .duplicateField n => "duplicate field " ++ backquoted n
  | .unknownVariant n [] => "unknown variant " ++ backquoted n ++ ", there are no variants"
  | .unknownVariant n es => "unknown variant " ++ backquoted n ++ ", expected " ++ oneOf es
  | .noVariantMatches e => "data did not match any variant of untagged enum " ++ e

/-- Why a text does not read as a typed value: a refusal of the text itself, or a decoding
error with the byte offset where it was found, once known. -/
inductive ReadError where
  | unreadable (e : SyntaxError)
  | typed (e : DecodeError) (offset : Option Nat)
  deriving Inhabited

/-- The message of a reading error in a text: what went wrong, then its line and column. -/
def ReadError.message (text : String) : ReadError → String
  | .unreadable e => e.message text
  | .typed e (some o) =>
    let (l, c) := lineColumn text o
    e.text ++ " at line " ++ toString l ++ " column " ++ toString c
  | .typed e none => e.text

/-- A decoding error placed at an offset, unless it is placed already. -/
def ReadError.placeAt (o : Nat) : ReadError → ReadError
  | .typed e none => .typed e (some o)
  | e => e

namespace Json

/-- Doubles as a complaint names them: as in JSON text, but a scientific exponent that is not
negative carries a plus sign (`1e+16`). -/
def complaintLayout : Layout := ⟨some (-5, 16), 1, true, "NaN", "inf"⟩

/-- How a value read in the wrong place is named in a complaint. -/
def unexpected : Json → String
  | .null => "null"
  | .bool b => "boolean `" ++ (if b then "true" else "false") ++ "`"
  | .int n => "integer `" ++ toString n ++ "`"
  | .float x => "floating point `" ++ complaintLayout.render x ++ "`"
  | .str s => "string " ++ quotedText s
  | .arr _ => "sequence"
  | .obj _ => "map"

end Json

open JsonReader

/-- Where reading stands: the rest of the text, and how many arrays and objects are open. -/
structure ReadState where
  cursor : Cursor
  depth : Nat := 0

/-- Reading a typed value from the text at the reading state. -/
abbrev Reader := EStateM ReadError ReadState

namespace Reader

/-- Skips blanks and looks at the next character. -/
def peek : Reader (Option Char) := fun s =>
  let c := skipBlank s.cursor
  .ok c.rest.head? { s with cursor := c }

/-- Takes the next character. -/
def eat : Reader Unit := fun s => .ok () { s with cursor := s.cursor.advance }

/-- Runs a step of the syntax reader. -/
def step {α : Type} (f : Cursor → Except SyntaxError (α × Cursor)) : Reader α := fun s =>
  match f s.cursor with
  | .ok (a, c) => .ok a { s with cursor := c }
  | .error e => .error (.unreadable e) s

/-- Runs a step of the syntax reader that yields only where it stops. -/
def move (f : Cursor → Except SyntaxError Cursor) : Reader Unit := step fun c => (f c).map ((), ·)

/-- A syntax error where reading stands. -/
def syntaxHere {α : Type} (code : SyntaxCode) : Reader α := step fun c => failAt c code

/-- A syntax error at the character looked at. -/
def syntaxAhead {α : Type} (code : SyntaxCode) : Reader α := step fun c => failPeek c code

/-- A decoding error, to be placed by the reader that catches it. -/
def complain {α : Type} (e : DecodeError) : Reader α := fun s => .error (.typed e none) s

/-- Places a decoding error of a reader where reading stands when it fails. -/
def placed {α : Type} (r : Reader α) : Reader α := fun s =>
  match r s with
  | .ok a s => .ok a s
  | .error e s => .error (e.placeAt s.cursor.offset) s

/-- Reads a number, or the complaint that it is not a `expected`. -/
def number (expected : String) : Reader Json := do
  match ← peek with
  | some '-' => eat; step (readNumber true)
  | some c => if c.isDigit then step (readNumber false) else wrongKind expected
  | none => syntaxAhead .eofInValue
where
  /-- Reads a scalar to name it, or looks at a bracket, and complains that it is not what
  was expected. -/
  wrongKind {α : Type} (expected : String) : Reader α := do
    let found : Json ← match ← peek with
      | some 'n' => do eat; move (expectWord ['u', 'l', 'l']); pure .null
      | some 't' => do eat; move (expectWord ['r', 'u', 'e']); pure (.bool true)
      | some 'f' => do eat; move (expectWord ['a', 'l', 's', 'e']); pure (.bool false)
      | some '-' => do eat; step (readNumber true)
      | some '"' => do eat; .str <$> step fun c => readString c.rest.length [] c
      | some '[' => pure (.arr [])
      | some '\x7b' => pure (.obj [])
      | some c => if c.isDigit then step (readNumber false) else syntaxAhead .expectedValue
      | none => syntaxAhead .expectedValue
    placed (complain (.invalidType found.unexpected expected))

/-- The complaint that the next value is not a `expected`, naming what it is. -/
def wrongKind {α : Type} (expected : String) : Reader α := number.wrongKind expected

/-- A truth value. -/
def bool : Reader Bool := placed do
  match ← peek with
  | some 't' => eat; move (expectWord ['r', 'u', 'e']); pure true
  | some 'f' => eat; move (expectWord ['a', 'l', 's', 'e']); pure false
  | some _ => wrongKind "a boolean"
  | none => syntaxAhead .eofInValue

/-- A string. -/
def string : Reader String := placed do
  match ← peek with
  | some '"' => eat; step fun c => readString c.rest.length [] c
  | some _ => wrongKind "a string"
  | none => syntaxAhead .eofInValue

/-- An unsigned integer below `2^bits`, named `what` in complaints. -/
def unsigned (bits : Nat) (what : String) : Reader Nat := placed do
  match ← number what with
  | .int n =>
    if 0 ≤ n ∧ n < Int.pow 2 bits then pure n.toNat
    else complain (.invalidValue ("integer `" ++ toString n ++ "`") what)
  | j => complain (.invalidType j.unexpected what)

/-- A signed 64-bit integer. -/
def int64 : Reader Int := placed do
  match ← number "i64" with
  | .int n =>
    if n < Int.pow 2 63 then pure n
    else complain (.invalidValue ("integer `" ++ toString n ++ "`") "i64")
  | j => complain (.invalidType j.unexpected "i64")

/-- A double, from any number. -/
def float : Reader Float := placed do
  match ← number "f64" with
  | .int n => pure (Float.ofInt n)
  | .float x => pure x
  | j => complain (.invalidType j.unexpected "f64")

/-- Opens an array or object whose bracket is next, refusing to go deeper than the syntax
reader does. -/
def open_ : Reader Unit := fun s =>
  if s.depth ≥ maxDepth then (syntaxAhead .recursionLimit : Reader Unit) s
  else .ok () { s with cursor := s.cursor.advance, depth := s.depth + 1 }

/-- Runs the inside of an array or object that `open_` opened, then its closing, after which
reading stands as deep as before the opening: a decoding error of the inside is placed where the
closing leaves reading, whether or not the closing succeeds. -/
def enclosed {α : Type} (inside : Reader α) (closing : Reader Unit) : Reader α := fun s =>
  match inside s with
  | .ok a s' =>
    match closing s' with
    | .ok () s'' => .ok a { s'' with depth := s.depth - 1 }
    | .error e s'' => .error e s''
  | .error e s' =>
    match closing s' with
    | .ok () s'' => .error (e.placeAt s''.cursor.offset) s''
    | .error _ s'' => .error (e.placeAt s''.cursor.offset) s''

/-- Closes an array: its bracket must be next. -/
def closeArray : Reader Unit := do
  match ← peek with
  | some ']' => eat
  | some ',' =>
    eat
    match ← peek with
    | some ']' => syntaxAhead .trailingComma
    | _ => syntaxAhead .trailingCharacters
  | some _ => syntaxAhead .trailingCharacters
  | none => syntaxAhead .eofInList

/-- Closes an object: its brace must be next. -/
def closeObject : Reader Unit := do
  match ← peek with
  | some '\x7d' => eat
  | some ',' => syntaxAhead .trailingComma
  | some _ => syntaxAhead .trailingCharacters
  | none => syntaxAhead .eofInObject

/-- Whether another item of an array follows, taking the comma before it. -/
def nextItem (first : Bool) : Reader Bool := do
  match ← peek with
  | none => syntaxAhead .eofInList
  | some ']' => pure false
  | some c =>
    if first then pure true
    else if c == ',' then
      eat
      match ← peek with
      | some ']' => syntaxAhead .trailingComma
      | some _ => pure true
      | none => syntaxAhead .eofInValue
    else syntaxAhead .expectedListCommaOrEnd

/-- The next key of an object, taking the comma before it, or `none` at its end. -/
def nextKey (first : Bool) : Reader (Option String) := do
  match ← peek with
  | none => syntaxAhead .eofInObject
  | some '\x7d' => pure none
  | some c =>
    if first then
      if c == '"' then key else syntaxAhead .keyMustBeString
    else if c == ',' then
      eat
      match ← peek with
      | some '"' => key
      | some '\x7d' => syntaxAhead .trailingComma
      | some _ => syntaxAhead .keyMustBeString
      | none => syntaxAhead .eofInValue
    else syntaxAhead .expectedObjectCommaOrEnd
where
  key : Reader (Option String) := do
    eat
    some <$> step fun c => readString c.rest.length [] c

/-- Takes the colon between a key and its value. -/
def colon : Reader Unit := do
  match ← peek with
  | some ':' => eat
  | some _ => syntaxAhead .expectedColon
  | none => syntaxAhead .eofInObject

/-- Skips a value. -/
def skip : Reader Unit := move fun c => skipValue (4 * (c.rest.length + 1)) [] c

/-- Reads any JSON value whole. -/
def any : Reader Json := fun s =>
  (step fun c => readValue (c.rest.length + 1) s.depth c : Reader Json) s

/-- Reads items with a reader until the closing bracket. Fuel bounds the items. -/
def items {α : Type} (item : Reader α) : Nat → Bool → List α → Reader (List α)
  | 0, _, acc => pure acc.reverse
  | fuel + 1, first, acc => do
    if ← nextItem first then items item fuel false ((← item) :: acc)
    else pure acc.reverse

/-- A list of values, from an array. -/
def list {α : Type} (item : Reader α) : Reader (List α) := placed do
  match ← peek with
  | some '[' =>
    open_
    enclosed (do let s ← get; items item (s.cursor.rest.length + 1) true []) closeArray
  | some _ => wrongKind "a sequence"
  | none => syntaxAhead .eofInValue

/-- Inserts an entry into a map ordered by key; an entry of equal key is replaced. -/
def insertEntry {α : Type} (k : String) (v : α) : List (String × α) → List (String × α)
  | [] => [(k, v)]
  | (k', v') :: rest =>
    if k < k' then (k, v) :: (k', v') :: rest
    else if k == k' then (k, v) :: rest
    else (k', v') :: insertEntry k v rest

/-- Reads entries with a value reader until the closing brace. Fuel bounds the entries. -/
def entries {α : Type} (value : Reader α) :
    Nat → Bool → List (String × α) → Reader (List (String × α))
  | 0, _, acc => pure acc
  | fuel + 1, first, acc => do
    match ← nextKey first with
    | none => pure acc
    | some k =>
      colon
      let v ← value
      entries value fuel false (insertEntry k v acc)

/-- A map with text keys, ordered by key, from an object; of repeated keys the last wins. -/
def map {α : Type} (value : Reader α) : Reader (List (String × α)) := placed do
  match ← peek with
  | some '\x7b' =>
    open_
    enclosed (do let s ← get; entries value (s.cursor.rest.length + 1) true []) closeObject
  | some _ => wrongKind "a map"
  | none => syntaxAhead .eofInValue

/-- A value that may be of several kinds: read whole, then taken by `fits`, the first kind it
fits. -/
def untagged {α : Type} (name : String) (fits : Json → Option α) : Reader α := do
  match fits (← any) with
  | some a => pure a
  | none => complain (.noVariantMatches name)

end Reader

/-- A field of a record: its name, whether it must be given, and how its value is read into
the record being built. -/
structure FieldSpec (α : Type) where
  name : String
  required : Bool := true
  read : α → Reader α

/-- How a record is read: its name in complaints (`struct Instrument`), the record it starts
from (holding the defaults), and its fields in order. -/
structure RecordSpec (α : Type) where
  name : String
  start : α
  fields : List (FieldSpec α)

namespace RecordSpec

/-- The complaint for the first required field, in order, that was not given. -/
def missing? {α : Type} (r : RecordSpec α) (given : List String) : Option DecodeError :=
  (r.fields.find? fun f => f.required && !given.contains f.name).map (.missingField ·.name)

/-- Reads members of the record's object; unknown members are skipped, a member given twice
is a complaint. Fuel bounds the members. -/
def members {α : Type} (r : RecordSpec α) : Nat → Bool → List String → α → Reader (List String × α)
  | 0, _, given, a => pure (given, a)
  | fuel + 1, first, given, a => do
    match ← Reader.nextKey first with
    | none => pure (given, a)
    | some k =>
      match r.fields.find? (·.name == k) with
      | some f =>
        if given.contains k then Reader.complain (.duplicateField k)
        else
          Reader.colon
          let a ← f.read a
          members r fuel false (k :: given) a
      | none =>
        Reader.colon
        Reader.skip
        members r fuel false given a

/-- Reads the fields in order from an array; a field the array runs out before is a complaint
unless it has a default. -/
def positional {α : Type} (r : RecordSpec α) : List (FieldSpec α) → Nat → α → Reader α
  | [], _, a => pure a
  | f :: rest, i, a => do
    if ← Reader.nextItem (i == 0) then positional r rest (i + 1) (← f.read a)
    else if f.required then
      Reader.complain (.invalidLength i
        (r.name ++ " with " ++ toString r.fields.length ++ " elements"))
    else positional r rest (i + 1) a

/-- Reads the record from an object or an array. -/
def read {α : Type} (r : RecordSpec α) : Reader α := Reader.placed do
  match ← Reader.peek with
  | some '\x7b' =>
    Reader.open_
    Reader.enclosed (do
      let s ← get
      let (given, a) ← r.members (s.cursor.rest.length + 1) true [] r.start
      match r.missing? given with
      | some e => Reader.complain e
      | none => pure a) Reader.closeObject
  | some '[' =>
    Reader.open_
    Reader.enclosed (r.positional r.fields 0 r.start) Reader.closeArray
  | some _ => Reader.wrongKind r.name
  | none => Reader.syntaxAhead .eofInValue

end RecordSpec

/-- The contents of a variant: none, or a value read by a reader. -/
inductive VariantForm (α : Type) where
  | unit (value : α)
  | contents (read : Reader α)

/-- A variant of an enumeration: the names it goes by, its own first, and its form. -/
structure VariantSpec (α : Type) where
  names : List String
  form : VariantForm α

namespace Reader

/-- The names the variants go by, as a complaint about an unknown one lists them: variant by
variant, the names of each in string order. -/
def variantNames {α : Type} (variants : List (VariantSpec α)) : List String :=
  variants.flatMap fun v => v.names.mergeSort fun a b => decide (a ≤ b)

/-- The variant a string names. -/
def variantNamed {α : Type} (variants : List (VariantSpec α)) : Reader (VariantSpec α) := placed do
  match ← peek with
  | some '"' =>
    eat
    let n ← step fun c => readString c.rest.length [] c
    match variants.find? (·.names.contains n) with
    | some v => pure v
    | none => complain (.unknownVariant n (variantNames variants))
  | some _ => wrongKind "variant identifier"
  | none => syntaxAhead .eofInValue

/-- Reads `null`, the contents of a variant that has none. -/
def unit : Reader Unit := placed do
  match ← peek with
  | some 'n' => eat; move (expectWord ['u', 'l', 'l'])
  | some _ => wrongKind "unit"
  | none => syntaxAhead .eofInValue

/-- An enumeration: a string naming a variant without contents, or an object whose only key
names the variant and whose value holds its contents. -/
def enum {α : Type} (variants : List (VariantSpec α)) : Reader α := do
  match ← peek with
  | some '\x7b' =>
    open_
    let v ← variantNamed variants
    colon
    let a ← match v.form with
      | .unit a => do unit; pure a
      | .contents r => r
    match ← peek with
    | some '\x7d' => do eat; modify fun s => { s with depth := s.depth - 1 }; pure a
    | some _ => syntaxHere .expectedValue
    | none => syntaxHere .eofInObject
  | some '"' =>
    let v ← variantNamed variants
    match v.form with
    | .unit a => pure a
    | .contents _ => complain (.invalidType "unit variant" "newtype variant")
  | some _ => syntaxAhead .expectedValue
  | none => syntaxAhead .eofInValue

/-- Reads a whole text as one typed value; only blanks may follow it. -/
def run {α : Type} (r : Reader α) (text : String) : Except ReadError α :=
  let whole : Reader α := do
    let a ← r
    match ← peek with
    | some _ => syntaxAhead .trailingCharacters
    | none => pure a
  match EStateM.run whole { cursor := ⟨text.toList, 0⟩ } with
  | .ok a _ => .ok a
  | .error e _ => .error e

end Reader

end PulseCompiler
