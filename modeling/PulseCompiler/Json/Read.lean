import PulseCompiler.Json.Value
set_option autoImplicit false

/-!
# Reading JSON text

A strict reader of JSON documents. Numbers follow the usual reading of a JSON number into a
machine value: an integer literal that fits an unsigned or signed 64-bit word is an integer
(`-0` is the double `-0.0`), every other number is the double nearest to it, and a number
beyond the largest double is refused.

A refused text yields a `SyntaxError`: what was expected and the byte offset where reading
stopped, from which `SyntaxError.message` derives the line and column. Nesting is limited to
127 levels.
-/

namespace PulseCompiler

/-- Why a text is not a JSON document. -/
inductive SyntaxCode where
  | eofInValue | eofInList | eofInObject | eofInString
  | expectedColon | expectedListCommaOrEnd | expectedObjectCommaOrEnd
  | expectedIdent | expectedValue | invalidEscape | invalidNumber | numberOutOfRange
  | invalidCodePoint | controlCharacter | keyMustBeString | loneLeadingSurrogate
  | trailingComma | trailingCharacters | endOfHexEscape | recursionLimit
  deriving Repr, DecidableEq, Inhabited

/-- Text of each refusal. -/
def SyntaxCode.text : SyntaxCode → String
  | .eofInValue => "EOF while parsing a value"
  | .eofInList => "EOF while parsing a list"
  | .eofInObject => "EOF while parsing an object"
  | .eofInString => "EOF while parsing a string"
  | .expectedColon => "expected `:`"
  | .expectedListCommaOrEnd => "expected `,` or `]`"
  | .expectedObjectCommaOrEnd => "expected `,` or `\x7d`"
  | .expectedIdent => "expected ident"
  | .expectedValue => "expected value"
  | .invalidEscape => "invalid escape"
  | .invalidNumber => "invalid number"
  | .numberOutOfRange => "number out of range"
  | .invalidCodePoint => "invalid unicode code point"
  | .controlCharacter => "control character (\\u0000-\\u001F) found while parsing a string"
  | .keyMustBeString => "key must be a string"
  | .loneLeadingSurrogate => "lone leading surrogate in hex escape"
  | .trailingComma => "trailing comma"
  | .trailingCharacters => "trailing characters"
  | .endOfHexEscape => "unexpected end of hex escape"
  | .recursionLimit => "recursion limit exceeded"

/-- A refusal at a byte offset of the text. -/
structure SyntaxError where
  code : SyntaxCode
  offset : Nat
  deriving Repr, Inhabited

/-- Line (from one) and column (bytes since the line's start) of a byte offset. -/
def lineColumn (text : String) (offset : Nat) : Nat × Nat :=
  let bytes := (text.toUTF8.toList.take offset)
  let line := bytes.foldl (fun (l, c) b => if b == 10 then (l + 1, 0) else (l, c + 1)) (1, 0)
  line

/-- The refusal with its place, as `<what> at line <l> column <c>`. -/
def SyntaxError.message (e : SyntaxError) (text : String) : String :=
  let (l, c) := lineColumn text e.offset
  e.code.text ++ " at line " ++ toString l ++ " column " ++ toString c

namespace JsonReader

/-- Remaining characters and the byte offset of the first of them. -/
structure Cursor where
  rest : List Char
  offset : Nat

/-- A reading step: a result and the cursor after it, or a refusal. -/
abbrev Step (α : Type) := Except SyntaxError (α × Cursor)

/-- Refusal at the cursor. -/
def failAt {β : Type} (c : Cursor) (code : SyntaxCode) : Except SyntaxError β :=
  .error ⟨code, c.offset⟩

/-- Refusal one byte past the cursor (the offset of a character looked at but not taken),
capped at the end of the text. -/
def failPeek {β : Type} (c : Cursor) (code : SyntaxCode) : Except SyntaxError β :=
  .error ⟨code, if c.rest.isEmpty then c.offset else c.offset + 1⟩

/-- Refusal one byte past the cursor, after a byte was taken and found wrong. -/
def failNext {β : Type} (c : Cursor) (code : SyntaxCode) : Except SyntaxError β :=
  .error ⟨code, c.offset + 1⟩

/-- Takes the first character. -/
def Cursor.advance (c : Cursor) : Cursor :=
  match c.rest with
  | [] => c
  | ch :: rest => ⟨rest, c.offset + ch.utf8Size⟩

/-- Skips blanks: space, tab, line feed and carriage return. -/
def skipBlank (c : Cursor) : Cursor :=
  let blank := c.rest.takeWhile (fun ch => ch == ' ' || ch == '\t' || ch == '\n' || ch == '\r')
  ⟨c.rest.drop blank.length, c.offset + blank.length⟩

/-- Reads the letters of `null`, `true` or `false` after the first. -/
def expectWord : List Char → Cursor → Except SyntaxError Cursor
  | [], c => .ok c
  | w :: ws, c =>
    match c.rest with
    | [] => failAt c .eofInValue
    | ch :: _ => if ch == w then expectWord ws c.advance else failNext c .expectedIdent

/-- Decimal digits at the front. -/
def digitsOf (cs : List Char) : List Char := cs.takeWhile Char.isDigit

/-- Value of a digit string. -/
def digitValue (ds : List Char) : Nat := ds.foldl (fun n d => 10 * n + (d.toNat - 48)) 0

/-- The double nearest to `digits · 10^exp`, or `none` beyond the largest double. Exponents
far outside the range of doubles are decided without computing the power. -/
def nearestDouble (negative : Bool) (digits : Nat) (exp : Int) : Option Float :=
  let sign (x : Float) := if negative then -x else x
  if digits = 0 then some (sign 0.0)
  else
    let lead := exp + ((toString digits).length : Int)
    if lead > 310 then none
    else if lead < -330 then some (sign 0.0)
    else
      let x := if exp ≥ 0 then Float.ofScientific digits false exp.toNat
        else Float.ofScientific digits true (-exp).toNat
      if x.isInf then none else some (sign x)

/-- Reads the point and the digits of a fraction, if a point is next. -/
def readFraction (c : Cursor) : Except SyntaxError (Option (List Char) × Cursor) :=
  match c.rest with
  | '.' :: rest =>
    let fd := digitsOf rest
    let after : Cursor := ⟨rest, c.offset + 1⟩
    if fd.isEmpty then
      if rest.isEmpty then failPeek after .eofInValue
      else failPeek after .invalidNumber
    else pure (some fd, ⟨rest.drop fd.length, after.offset + fd.length⟩)
  | _ => pure (none, c)

/-- Reads the digits of an exponent whose mark and sign are taken. -/
def readExponentDigits (negative : Bool) (c : Cursor) :
    Except SyntaxError (Option Int × Cursor) :=
  let ed := digitsOf c.rest
  match c.rest with
  | [] => failAt c .eofInValue
  | _ =>
    if ed.isEmpty then failAt ⟨c.rest.drop 1, c.offset + 1⟩ .invalidNumber
    else
      let v : Int := digitValue ed
      pure (some (if negative then -v else v), ⟨c.rest.drop ed.length, c.offset + ed.length⟩)

/-- Reads an exponent with its sign, if an `e` or `E` is next. -/
def readExponent (c : Cursor) : Except SyntaxError (Option Int × Cursor) :=
  match c.rest with
  | e :: rest =>
    if e == 'e' || e == 'E' then
      match rest with
      | '+' :: r => readExponentDigits false ⟨r, c.offset + 2⟩
      | '-' :: r => readExponentDigits true ⟨r, c.offset + 2⟩
      | r => readExponentDigits false ⟨r, c.offset + 1⟩
    else pure (none, c)
  | [] => pure (none, c)

/-- The value of a number from its integer digits, fraction and exponent: an integer when it
has neither and fits a 64-bit word, the nearest double otherwise, refused beyond the largest
double. -/
def numberValue (negative : Bool) (intDigits : List Char) (fracDigits : Option (List Char))
    (expPart : Option Int) : Except SyntaxCode Json :=
  let whole := digitValue intDigits
  match fracDigits, expPart with
  | none, none =>
    if !negative then
      if whole < Nat.pow 2 64 then .ok (.int whole)
      else match nearestDouble false whole 0 with
        | some x => .ok (.float x)
        | none => .error .numberOutOfRange
    else if whole = 0 then .ok (.float (-0.0))
    else if whole ≤ Nat.pow 2 63 then .ok (.int (-(whole : Int)))
    else match nearestDouble true whole 0 with
      | some x => .ok (.float x)
      | none => .error .numberOutOfRange
  | _, _ =>
    let fd := fracDigits.getD []
    let digits := digitValue (intDigits ++ fd)
    let exp := expPart.getD 0 - (fd.length : Int)
    match nearestDouble negative digits exp with
    | some x => .ok (.float x)
    | none => .error .numberOutOfRange

/-- Reads a number whose sign, if any, is taken: integer digits without a leading zero, then
a fraction and an exponent if they follow; a number out of range is refused after it. -/
def readNumber (negative : Bool) (c : Cursor) : Except SyntaxError (Json × Cursor) := do
  let intDigits := digitsOf c.rest
  match intDigits with
  | [] => if c.rest.isEmpty then failAt c .eofInValue else failNext c .invalidNumber
  | d :: more =>
    if d == '0' && !more.isEmpty then
      failPeek ⟨c.rest.drop 1, c.offset + 1⟩ .invalidNumber
    else
      let intDigits := if d == '0' then ['0'] else intDigits
      let c1 : Cursor := ⟨c.rest.drop intDigits.length, c.offset + intDigits.length⟩
      let (fracDigits, c2) ← readFraction c1
      let (expPart, c3) ← readExponent c2
      match numberValue negative intDigits fracDigits expPart with
      | .ok j => pure (j, c3)
      | .error code => failAt c3 code

/-- Value of a hexadecimal digit. -/
def hexValue (ch : Char) : Option Nat :=
  if '0' ≤ ch && ch ≤ '9' then some (ch.toNat - 48)
  else if 'a' ≤ ch && ch ≤ 'f' then some (ch.toNat - 87)
  else if 'A' ≤ ch && ch ≤ 'F' then some (ch.toNat - 55)
  else none

/-- Reads four hexadecimal digits of a `\u` escape. Four bytes are taken at once: fewer than
four left is the end of the text, and four that are not all hexadecimal digits are refused
after them. -/
def readHex4 (c : Cursor) : Step Nat :=
  let four := c.rest.take 4
  let bytes := (four.map Char.utf8Size).foldr (· + ·) 0
  if bytes < 4 then failAt ⟨[], c.offset + bytes⟩ .eofInString
  else
    match four.mapM hexValue with
    | some [a, b, d, e] => .ok (((a * 16 + b) * 16 + d) * 16 + e, ⟨c.rest.drop 4, c.offset + 4⟩)
    | _ => .error ⟨.invalidEscape, c.offset + 4⟩

/-- Reads the rest of a `\u` escape, pairing surrogates. -/
def readUnicodeEscape (c : Cursor) : Except SyntaxError (Char × Cursor) := do
  let (n, c) ← readHex4 c
  if 0xDC00 ≤ n && n ≤ 0xDFFF then failAt c .loneLeadingSurrogate
  else if 0xD800 ≤ n && n ≤ 0xDBFF then
    match c.rest with
    | '\\' :: 'u' :: _ =>
      let (n2, c) ← readHex4 c.advance.advance
      if n2 < 0xDC00 || n2 > 0xDFFF then failAt c .loneLeadingSurrogate
      else
        let code := ((n - 0xD800) * 1024 + (n2 - 0xDC00)) + 0x10000
        pure (Char.ofNat code, c)
    | '\\' :: [] => failAt c.advance .eofInString
    | '\\' :: _ => .error ⟨.endOfHexEscape, c.offset + 2⟩
    | [] => failAt c .eofInString
    | _ => failNext c .endOfHexEscape
  else pure (Char.ofNat n, c)

/-- Reads a string whose opening quote is taken. Fuel bounds the characters read. -/
def readString : Nat → List Char → Cursor → Step String
  | 0, _, c => failAt c .eofInString
  | fuel + 1, acc, c =>
    match c.rest with
    | [] => failAt c .eofInString
    | '"' :: _ => .ok (String.ofList acc.reverse, c.advance)
    | '\\' :: rest =>
      let c' : Cursor := ⟨rest, c.offset + 1⟩
      match rest with
      | [] => failAt c' .eofInString
      | e :: _ =>
        let simple : Option Char := match e with
          | '"' => some '"' | '\\' => some '\\' | '/' => some '/'
          | 'b' => some '\x08' | 'f' => some '\x0c' | 'n' => some '\n'
          | 'r' => some '\r' | 't' => some '\t' | _ => none
        match simple with
        | some ch => readString fuel (ch :: acc) c'.advance
        | none =>
          if e == 'u' then
            match readUnicodeEscape c'.advance with
            | .ok (ch, c'') => readString fuel (ch :: acc) c''
            | .error err => .error err
          else failNext c' .invalidEscape
    | ch :: _ =>
      if ch.toNat < 0x20 then failAt c.advance .controlCharacter
      else readString fuel (ch :: acc) c.advance

/-- Greatest nesting of arrays and objects. -/
def maxDepth : Nat := 127

mutual
/-- Reads one value after optional blanks. -/
def readValue (fuel depth : Nat) (c : Cursor) : Step Json :=
  match fuel with
  | 0 => failAt c .eofInValue
  | fuel + 1 =>
    let c := skipBlank c
    match c.rest with
    | [] => failPeek c .eofInValue
    | ch :: _ =>
      if ch == 'n' then (expectWord ['u', 'l', 'l'] c.advance).map (fun c => (.null, c))
      else if ch == 't' then (expectWord ['r', 'u', 'e'] c.advance).map (fun c => (.bool true, c))
      else if ch == 'f' then
        (expectWord ['a', 'l', 's', 'e'] c.advance).map (fun c => (.bool false, c))
      else if ch == '-' then readNumber true c.advance
      else if ch.isDigit then readNumber false c
      else if ch == '"' then
        (readString c.rest.length [] c.advance).map (fun (s, c) => (.str s, c))
      else if ch == '[' then
        if depth ≥ maxDepth then failPeek c .recursionLimit
        else readItems fuel (depth + 1) true [] c.advance
      else if ch == '{' then
        if depth ≥ maxDepth then failPeek c .recursionLimit
        else readMembers fuel (depth + 1) true [] c.advance
      else failPeek c .expectedValue

/-- Reads array items after `[` or after an item. -/
def readItems (fuel depth : Nat) (first : Bool) (acc : List Json) (c : Cursor) : Step Json :=
  match fuel with
  | 0 => failAt c .eofInList
  | fuel + 1 =>
    let c := skipBlank c
    match c.rest with
    | [] => failPeek c .eofInList
    | ']' :: _ => .ok (.arr acc.reverse, c.advance)
    | ch :: _ =>
      let next : Except SyntaxError Cursor :=
        if ch == ',' && !first then .ok (skipBlank c.advance)
        else if first then .ok c
        else failPeek c .expectedListCommaOrEnd
      match next with
      | .error e => .error e
      | .ok c =>
        match c.rest with
        | [] => failPeek c .eofInValue
        | ']' :: _ => failPeek c .trailingComma
        | _ =>
          match readValue fuel depth c with
          | .error e => .error e
          | .ok (v, c) => readItems fuel depth false (v :: acc) c

/-- Reads object members after `{` or after a member. -/
def readMembers (fuel depth : Nat) (first : Bool) (acc : List (String × Json)) (c : Cursor) :
    Step Json :=
  match fuel with
  | 0 => failAt c .eofInObject
  | fuel + 1 =>
    let c := skipBlank c
    match c.rest with
    | [] => failPeek c .eofInObject
    | '}' :: _ => .ok (.obj acc.reverse, c.advance)
    | ch :: _ =>
      let next : Except SyntaxError Cursor :=
        if ch == ',' && !first then .ok (skipBlank c.advance)
        else if first then .ok c
        else failPeek c .expectedObjectCommaOrEnd
      match next with
      | .error e => .error e
      | .ok c =>
        match c.rest with
        | [] => failPeek c .eofInValue
        | '}' :: _ => failPeek c .trailingComma
        | '"' :: _ =>
          match readString c.rest.length [] c.advance with
          | .error e => .error e
          | .ok (key, c) =>
            let c := skipBlank c
            match c.rest with
            | ':' :: _ =>
              match readValue fuel depth c.advance with
              | .error e => .error e
              | .ok (v, c) => readMembers fuel depth false ((key, v) :: acc) c
            | [] => failPeek c .eofInObject
            | _ => failPeek c .expectedColon
        | _ => failPeek c .keyMustBeString
end

/-! Skipping a value without reading it is more lenient than reading it: numbers are checked
for their form but not their range, `\u` escapes need not pair, and nesting is not limited.
After a `,` inside an array or object another value or member must follow, so a trailing
comma is refused as a missing value or key. -/

/-- Skips the digits of an exponent whose `e` or `E` is next. -/
def skipExponent (c : Cursor) : Except SyntaxError Cursor :=
  let c := c.advance
  let c := match c.rest with
    | '+' :: _ | '-' :: _ => c.advance
    | _ => c
  match c.rest with
  | [] => failAt c .invalidNumber
  | d :: _ =>
    if d.isDigit then
      let ds := digitsOf c.rest
      .ok ⟨c.rest.drop ds.length, c.offset + ds.length⟩
    else failNext c .invalidNumber

/-- Skips a fraction or exponent, if one follows the integer part of a number. -/
def skipFraction (c : Cursor) : Except SyntaxError Cursor :=
  match c.rest with
  | '.' :: rest =>
    let ds := digitsOf rest
    let c' : Cursor := ⟨rest.drop ds.length, c.offset + 1 + ds.length⟩
    if ds.isEmpty then failPeek c' .invalidNumber
    else match c'.rest with
      | 'e' :: _ | 'E' :: _ => skipExponent c'
      | _ => .ok c'
  | 'e' :: _ | 'E' :: _ => skipExponent c
  | _ => .ok c

/-- Skips a number whose sign, if any, is taken. -/
def skipNumber (c : Cursor) : Except SyntaxError Cursor :=
  match c.rest with
  | [] => failAt c .invalidNumber
  | '0' :: rest =>
    let c' : Cursor := ⟨rest, c.offset + 1⟩
    match rest with
    | d :: _ => if d.isDigit then failPeek c' .invalidNumber else skipFraction c'
    | [] => .ok c'
  | d :: _ =>
    if d.isDigit then
      let ds := digitsOf c.rest
      skipFraction ⟨c.rest.drop ds.length, c.offset + ds.length⟩
    else failNext c .invalidNumber

/-- Skips four bytes of a `\u` escape. -/
def skipHex4 (c : Cursor) : Except SyntaxError Cursor := (readHex4 c).map (·.2)

/-- Skips the rest of a string whose opening quote is taken. A control character is refused
where it stands. Fuel bounds the characters read. -/
def skipString : Nat → Cursor → Except SyntaxError Cursor
  | 0, c => failAt c .eofInString
  | fuel + 1, c =>
    match c.rest with
    | [] => failAt c .eofInString
    | '"' :: _ => .ok c.advance
    | '\\' :: rest =>
      let c' : Cursor := ⟨rest, c.offset + 1⟩
      match rest with
      | [] => failAt c' .eofInString
      | e :: _ =>
        if e == 'u' then
          match skipHex4 c'.advance with
          | .ok c'' => skipString fuel c''
          | .error err => .error err
        else if ['"', '\\', '/', 'b', 'f', 'n', 'r', 't'].contains e then skipString fuel c'.advance
        else failNext c' .invalidEscape
    | ch :: _ =>
      if ch.toNat < 0x20 then failAt c .controlCharacter
      else skipString fuel c.advance

/-- The refusal for the end of the text inside an array or an object. -/
def eofIn (frame : Char) : SyntaxCode := if frame == '[' then .eofInList else .eofInObject

mutual
/-- Skips one value; `outer` holds the arrays (`[`) and objects (`{`) around it, innermost
first. -/
def skipValue (fuel : Nat) (outer : List Char) (c : Cursor) : Except SyntaxError Cursor :=
  match fuel with
  | 0 => failAt c .eofInValue
  | fuel + 1 =>
    let c := skipBlank c
    let scalar (r : Except SyntaxError Cursor) : Except SyntaxError Cursor :=
      match r with
      | .error e => .error e
      | .ok c =>
        match outer with
        | [] => .ok c
        | f :: rest => skipAfter fuel f true rest c
    match c.rest with
    | [] => failPeek c .eofInValue
    | ch :: _ =>
      if ch == 'n' then scalar (expectWord ['u', 'l', 'l'] c.advance)
      else if ch == 't' then scalar (expectWord ['r', 'u', 'e'] c.advance)
      else if ch == 'f' then scalar (expectWord ['a', 'l', 's', 'e'] c.advance)
      else if ch == '-' then scalar (skipNumber c.advance)
      else if ch.isDigit then scalar (skipNumber c)
      else if ch == '"' then scalar (skipString c.rest.length c.advance)
      else if ch == '[' || ch == '{' then skipAfter fuel ch false outer c.advance
      else failPeek c .expectedValue

/-- Continues inside an array or object `frame` after its opening or after one of its values
(`afterValue`): a comma, its closing bracket, or (just after the opening) its first entry. -/
def skipAfter (fuel : Nat) (frame : Char) (afterValue : Bool) (outer : List Char) (c : Cursor) :
    Except SyntaxError Cursor :=
  match fuel with
  | 0 => failAt c (eofIn frame)
  | fuel + 1 =>
    let c := skipBlank c
    match c.rest with
    | [] => failPeek c (eofIn frame)
    | ch :: _ =>
      if ch == ',' && afterValue then skipEntry fuel frame outer c.advance
      else if (ch == ']' && frame == '[') || (ch == '\x7d' && frame == '\x7b') then
        match outer with
        | [] => .ok c.advance
        | f :: rest => skipAfter fuel f true rest c.advance
      else if afterValue then
        failPeek c (if frame == '[' then .expectedListCommaOrEnd else .expectedObjectCommaOrEnd)
      else skipEntry fuel frame outer c

/-- Skips the next entry of an array or object: a value, or a key, a colon and a value. -/
def skipEntry (fuel : Nat) (frame : Char) (outer : List Char) (c : Cursor) :
    Except SyntaxError Cursor :=
  match fuel with
  | 0 => failAt c (eofIn frame)
  | fuel + 1 =>
    if frame == '[' then skipValue fuel (frame :: outer) c
    else
      let c := skipBlank c
      match c.rest with
      | [] => failPeek c .eofInObject
      | '"' :: _ =>
        match skipString c.rest.length c.advance with
        | .error e => .error e
        | .ok c =>
          let c := skipBlank c
          match c.rest with
          | ':' :: _ => skipValue fuel (frame :: outer) c.advance
          | [] => failPeek c .eofInObject
          | _ => failPeek c .expectedColon
      | _ => failPeek c .keyMustBeString
end

end JsonReader

open JsonReader in
/-- Reads a whole text as one JSON document; blanks may surround it. -/
def Json.read (text : String) : Except SyntaxError Json :=
  let c : Cursor := ⟨text.toList, 0⟩
  match readValue (text.length + 1) 0 c with
  | .error e => .error e
  | .ok (v, c) =>
    let c := skipBlank c
    if c.rest.isEmpty then .ok v else failPeek c .trailingCharacters

end PulseCompiler
