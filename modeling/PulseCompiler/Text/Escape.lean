import PulseCompiler.Text.GraphemeExtend
import PulseCompiler.Text.Printable
set_option autoImplicit false

/-!
# Quoted text

Text named inside a message or a listing is shown in double quotes. Inside the quotes a
quote, a backslash, a tab, a carriage return, a line feed and the null character are written
with a backslash (`\"`, `\\`, `\t`, `\r`, `\n`, `\0`). A character that is not printable, or
that would attach to the character before it (a grapheme extender), is written as its code in
braces (`\u{1b}`, `\u{301}`); everything else stands as it is.
-/

namespace PulseCompiler

/-- Lowercase hexadecimal digits of a number. -/
def hexDigits (n : Nat) : String := String.ofList (Nat.toDigits 16 n)

/-- A character as written inside quoted text. -/
def escapedChar (c : Char) : String :=
  match c with
  | '\t' => "\\t"
  | '\r' => "\\r"
  | '\n' => "\\n"
  | '\\' => "\\\\"
  | '"' => "\\\""
  | '\x00' => "\\0"
  | c =>
    if isGraphemeExtend c || !isPrintable c then "\\u\x7b" ++ hexDigits c.toNat ++ "\x7d"
    else String.singleton c

/-- Text in double quotes, escaped. -/
def quotedText (s : String) : String := "\"" ++ String.join (s.toList.map escapedChar) ++ "\""

/-- A list of texts on one line: `["a", "b"]`. -/
def quotedTexts (xs : List String) : String := "[" ++ ", ".intercalate (xs.map quotedText) ++ "]"

end PulseCompiler
