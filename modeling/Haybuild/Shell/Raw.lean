import Haybuild.Text.Utf8

/-!
# Raw texts

A shell works on bytes and does not ask what characters they make. A `Raw` text holds one character
for each byte, so that the shell's own characters, all of them ASCII, can be matched as they are
written. `Raw.ofText` and `Raw.toText` lead from texts to raw texts and back.
-/

namespace Haybuild

namespace Shell

/-- A text whose characters stand for one byte each. -/
abbrev Raw := Text

namespace Raw

/-- Bytes as a raw text. -/
def ofBytes (bytes : Bytes) : Raw :=
  bytes.map fun b => Char.ofNat b.toNat

/-- The bytes of a raw text. -/
def toBytes (t : Raw) : Bytes :=
  t.map fun c => UInt8.ofNat c.toNat

/-- The bytes of a text as a raw text. -/
def ofText (t : Text) : Raw :=
  ofBytes (Utf8.encode t)

/-- The text that the bytes of a raw text make. -/
def toText (t : Raw) : Text :=
  Utf8.decodeLossy (toBytes t)

/-- The order of raw texts, byte by byte: the one does not come after the other. -/
def notAfter (t u : Raw) : Bool :=
  !decide (u < t)

/-- The number that ASCII digits make. -/
def digits (t : Raw) : Nat :=
  t.foldl (fun v c => 10 * v + (c.toNat - 48)) 0

/-- The number that a raw text of ASCII digits stands for. -/
def nat? (t : Raw) : Option Nat :=
  if t ≠ [] && t.all Char.isDigit then some (digits t) else none

/-- The character can start the name of a variable. -/
def isNameStart (c : Char) : Bool :=
  c.isAlpha || c = '_'

/-- The character can go on the name of a variable. -/
def isNameChar (c : Char) : Bool :=
  c.isAlphanum || c = '_'

/-- The raw text can name a variable. -/
def isName (t : Raw) : Bool :=
  match t with
  | [] => false
  | c :: r => isNameStart c && r.all isNameChar

/-- The character separates words and columns. -/
def isSpace (c : Char) : Bool :=
  c = ' ' || (9 ≤ c.toNat && c.toNat ≤ 13)

/-- The lines of a raw text without their line feeds. A line feed at its end opens no more line. -/
def lines (t : Raw) : List Raw :=
  let parts := Text.cut '\n' t
  if parts.getLast? = some [] then parts.dropLast else parts

/-- Lines, each with a line feed after it. -/
def unlines (ls : List Raw) : Raw :=
  ls.flatMap fun l => l ++ ['\n']

/-- The words between spaces. -/
def words (t : Raw) : List Raw :=
  ((t.splitBy fun a b => isSpace a = isSpace b).filter fun w => !w.all isSpace)

/-- The raw text without the line feeds at its end. -/
def dropLineFeeds (t : Raw) : Raw :=
  (t.reverse.dropWhile (· = '\n')).reverse

/-- Pads on the left with a character up to a width. -/
def padLeft (c : Char) (width : Nat) (t : Raw) : Raw :=
  List.replicate (width - t.length) c ++ t

/-- Pads on the right with spaces up to a width. -/
def padRight (width : Nat) (t : Raw) : Raw :=
  t ++ List.replicate (width - t.length) ' '

end Raw

end Shell

end Haybuild
