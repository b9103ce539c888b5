import Haybuild.Text.Basic

/-!
# Terminal styles

A styled text is written between escape sequences: one for each attribute, then the text, then the
reset. `plain` removes every escape sequence `ESC [ … letter` from what is written to a console
without colour.
-/

namespace Haybuild

/-- How a text shows on a terminal: its colour, bold and dim. -/
structure Style where
  colour : Option Nat
  bold : Bool
  dim : Bool
  deriving Repr, DecidableEq

namespace Style

/-- The character that starts an escape sequence. -/
def escape : Char := '\x1b'

/-- The escape sequence of an attribute. -/
def sequence (code : Nat) : Text :=
  escape :: "[" ++ Text.ofNat code ++ "m"

/-- The text in a style. -/
def dress (s : Style) (t : Text) : Text :=
  let colour := match s.colour with
    | some code => sequence code
    | none => []
  let bold := if s.bold then sequence 1 else []
  let dim := if s.dim then sequence 2 else []
  colour ++ bold ++ dim ++ t ++ sequence 0

def red : Style := ⟨some 31, false, false⟩
def green : Style := ⟨some 32, false, false⟩
def yellow : Style := ⟨some 33, false, false⟩
def blue : Style := ⟨some 34, false, false⟩
def magenta : Style := ⟨some 35, false, false⟩
def grey : Style := ⟨some 90, false, false⟩
def strong : Style := ⟨none, true, false⟩
def strongRed : Style := ⟨some 31, true, false⟩
def strongGreen : Style := ⟨some 32, true, false⟩

/-- What derivation filled in. -/
def filled : Style := green

/-- A pair of dollars. -/
def pair : Style := ⟨none, false, true⟩

/-- A reference left in a derived text. -/
def leftover : Style := ⟨some 36, true, false⟩

/-- The character ends an escape sequence. -/
def isFinal (c : Char) : Bool :=
  ('a' ≤ c && c ≤ 'z') || ('A' ≤ c && c ≤ 'Z')

/-- The character can stand inside an escape sequence. -/
def isParameter (c : Char) : Bool :=
  ('0' ≤ c && c ≤ '9') || c = ';' || c = '?'

/-- The number of characters of the escape sequence that follows an escape character. -/
def sequenceLength? : Text → Option Nat
  | '[' :: r =>
    let parameters := r.takeWhile isParameter
    match r.drop parameters.length with
    | c :: _ => if isFinal c then some (parameters.length + 2) else none
    | [] => none
  | _ => none

/-- Removes the escape sequences, after passing over `skip` characters of one already met. -/
def plainFrom : Nat → Text → Text
  | _, [] => []
  | skip + 1, _ :: r => plainFrom skip r
  | 0, c :: r =>
    if c = escape then
      match sequenceLength? r with
      | some n => plainFrom n r
      | none => c :: plainFrom 0 r
    else c :: plainFrom 0 r

/-- The text without its escape sequences. -/
def plain (t : Text) : Text :=
  plainFrom 0 t

end Style

end Haybuild
