import Haybuild.Text.Basic

/-!
# Lines

A line ends at one of ten characters, or at a carriage return and line feed together. `lines` cuts
a text into lines; a terminator at the end of the text opens no further line. `unifyNewlines` is the
coarser rule by which files and the output of commands are read.
-/

namespace Haybuild

namespace Text

/-- A character at which a line ends. -/
def isTerminator (c : Char) : Bool :=
  let n := c.toNat
  (0x0A ≤ n && n ≤ 0x0D) || (0x1C ≤ n && n ≤ 0x1E) || n == 0x85 || n == 0x2028 || n == 0x2029

/-- The text up to the first terminator, and the lines after it. -/
def linesFrom : Text → Text × List Text
  | [] => ([], [])
  | '\r' :: '\n' :: r =>
    let (line, rest) := linesFrom r
    ([], if r = [] then [] else line :: rest)
  | c :: r =>
    let (line, rest) := linesFrom r
    if isTerminator c then ([], if r = [] then [] else line :: rest) else (c :: line, rest)

/-- The lines of a text, without their terminators. -/
def lines (t : Text) : List Text :=
  let (line, rest) := linesFrom t
  if t = [] then [] else line :: rest

/-- Each carriage return, with the line feed after it if there is one, becomes a line feed. -/
def unifyNewlines : Text → Text
  | [] => []
  | '\r' :: '\n' :: r => '\n' :: unifyNewlines r
  | c :: r => (if c = '\r' then '\n' else c) :: unifyNewlines r

end Text

end Haybuild
