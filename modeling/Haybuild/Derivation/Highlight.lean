import Haybuild.Derivation.Expand
import Haybuild.Console.Style

/-!
# Highlighting derived text

For a terminal, the spans of a value that references filled in are green, a pair of dollars is dim
and a reference that is still there is bold cyan. Nothing is substituted: without its escape
sequences the highlighted text is the value.
-/

namespace Haybuild

namespace Highlight

/-- The end of the last span that starts at an offset and is not empty. -/
def endAt? (spans : List Span) (offset : Nat) : Option Nat :=
  let starting := spans.reverse.find? fun s => s.start = (offset : Int) && s.start < s.stop
  starting.map fun s => s.stop.toNat

/-- A front of a text as it is shown, the offset after it, and the text after it. -/
structure Step where
  shown : Text
  offset : Nat
  rest : Text

/-- Shows the front of a nonempty text that starts at an offset of the value. -/
def first (spans : List Span) (offset : Nat) (c : Char) (r : Text) : Step :=
  match endAt? spans offset with
  | some stop =>
    ⟨Style.filled.dress ((c :: r).take (stop - offset)), stop, r.drop (stop - offset - 1)⟩
  | none =>
    match Piece.first c r with
    | (.pair, rest) => ⟨Style.pair.dress ['$', '$'], offset + 2, rest⟩
    | (.reference ref, rest) =>
      ⟨Style.leftover.dress ref.source, offset + ref.source.length, rest⟩
    | _ => ⟨[c], offset + 1, r⟩

theorem length_rest_first_le (spans : List Span) (offset : Nat) (c : Char) (r : Text) :
    (first spans offset c r).rest.length ≤ r.length := by
  have h := Piece.length_snd_first_le c r
  simp only [first]
  split
  · simp
  · split <;> simp_all

/-- Highlights a text that starts at an offset of the value. -/
def dressFrom (spans : List Span) (offset : Nat) : Text → Text
  | [] => []
  | c :: r =>
    have := length_rest_first_le spans offset c r
    let step := first spans offset c r
    step.shown ++ dressFrom spans step.offset step.rest
termination_by t => t.length
decreasing_by simp only [List.length_cons]; omega

end Highlight

/-- Highlights a value, of which references filled in the given spans. -/
def highlight (value : Text) (spans : List Span) : Text :=
  Highlight.dressFrom spans 0 value

end Haybuild
