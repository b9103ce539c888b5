import Haybuild.Text.Printable

/-!
# Quoted literals

The form in which messages show a text they were given: between single quotes, or between double
quotes when the text holds a single quote and no double one, with escapes for the backslash, the
quote and every character that does not print.
-/

namespace Haybuild

namespace Text

/-- `width` hexadecimal digits, in lower case. -/
def hex (width n : Nat) : Text :=
  let digits := Nat.toDigits 16 n
  List.replicate (width - digits.length) '0' ++ digits

/-- A character of a literal between `quote`s. -/
def literalChar (quote c : Char) : Text :=
  let n := c.toNat
  if c = quote || c = '\\' then ['\\', c]
  else if c = '\t' then "\\t"
  else if c = '\n' then "\\n"
  else if c = '\r' then "\\r"
  else if isPrintable c then [c]
  else if n ≤ 0xFF then "\\x" ++ hex 2 n
  else if n ≤ 0xFFFF then "\\u" ++ hex 4 n
  else "\\U" ++ hex 8 n

/-- The literal of a text. -/
def literal (t : Text) : Text :=
  let quote := if t.contains '\'' && !t.contains '"' then '"' else '\''
  quote :: t.flatMap (literalChar quote) ++ [quote]

end Text

end Haybuild
