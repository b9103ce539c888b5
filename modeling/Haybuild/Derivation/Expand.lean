import Haybuild.Derivation.Piece
import Haybuild.Derivation.Builtin
import Haybuild.Variables

/-!
# Expansion

Expanding a text keeps its `$$` pairs and its characters and puts the value of each reference in its
place. A reference is a call, or its body is derived to the name of a variable, whose raw text is
derived in turn. `Segment` pairs a piece with its value, so that the value of a text and the spans
of it that references filled in come from one list.
-/

namespace Haybuild

/-- A piece of a text and the text that stands for it in the value. -/
structure Segment where
  piece : Piece
  value : Text
  deriving Repr, DecidableEq

/-- A part of a text between two offsets, the second not included. -/
structure Span where
  start : Int
  stop : Int
  deriving Repr, DecidableEq

namespace Segment

/-- The text that a row of segments makes. -/
def valueOf (segments : List Segment) : Text :=
  segments.flatMap value

/-- The spans of the references that are not empty, for segments that start at an offset. -/
def spansFrom (offset : Int) : List Segment → List Span
  | [] => []
  | s :: r =>
    let stop := offset + s.value.length
    match s.piece with
    | .reference _ => if s.value = [] then spansFrom stop r else ⟨offset, stop⟩ :: spansFrom stop r
    | _ => spansFrom stop r

end Segment

namespace Derivation

/-- Derives the pieces of a text from left to right. `resolve` gives the value of a reference and
`fail` reports a fault of the reference it is given as written. -/
def segments (resolve : Reference → Derivation Text)
    (fail : Fault → Text → Derivation (List Segment)) : List Piece → Derivation (List Segment)
  | [] => pure []
  | .literal c :: r => do
    let rest ← segments resolve fail r
    pure (⟨.literal c, [c]⟩ :: rest)
  | .pair :: r => do
    let rest ← segments resolve fail r
    pure (⟨.pair, ['$', '$']⟩ :: rest)
  | .reference ref :: r => do
    let value ← resolve ref
    let rest ← segments resolve fail r
    pure (⟨.reference ref, value⟩ :: rest)
  | .unterminated b rest :: _ =>
    let written := (Piece.unterminated b rest).source
    fail (.unterminated written) written

/-- Expands a text while the references of `trace` are being derived. -/
def expandWith (debug : Bool) (resolve : List Text → Reference → Derivation Text)
    (trace : List Text) (t : Text) : Derivation (List Segment) :=
  segments (resolve trace) (fun fault written => .failed ⟨fault, written, trace, debug⟩) (pieces t)

/-- The value of a reference, with so many more expansions allowed inside one another. -/
def resolve (vars : Variables) (debug : Bool) :
    Nat → List Text → Reference → Derivation Text
  | 0, trace, ref => .failed ⟨.notConverged ref.source, ref.source, trace, debug⟩
  | depth + 1, trace, ref =>
    let expand (trace : List Text) (t : Text) : Derivation Text := do
      let segments ← expandWith debug (resolve vars debug depth) trace t
      pure (Segment.valueOf segments)
    let around := trace ++ [ref.source]
    match Builtin.ofBody? ref.body with
    | some (b, args) =>
      b.call (expand around) (fun fault => .failed ⟨fault, ref.source, around, debug⟩) ref.source
        (Builtin.arguments args)
    | none => do
      let body ← expand trace ref.body
      let name := Text.trim body
      match vars.get? name with
      | some raw => expand around raw
      | none => .failed ⟨.unknown ref.source name, ref.source, trace, debug⟩

/-- The segments of a text, with so many expansions allowed inside one another. -/
def expandSegments (vars : Variables) (debug : Bool) (depth : Nat) (trace : List Text)
    (t : Text) : Derivation (List Segment) :=
  expandWith debug (resolve vars debug depth) trace t

/-- The value of a text, with so many expansions allowed inside one another. -/
def expand (vars : Variables) (debug : Bool) (depth : Nat) (trace : List Text) (t : Text) :
    Derivation Text := do
  let segments ← expandSegments vars debug depth trace t
  pure (Segment.valueOf segments)

end Derivation

/-- Derives a text: the value in which every reference is replaced by what it stands for. -/
def derive (vars : Variables) (debug : Bool) (t : Text) : Derivation Text :=
  Derivation.expand vars debug depthLimit [] t

/-- Derives a text and tells which spans of the value references filled in. -/
def deriveSpans (vars : Variables) (debug : Bool) (t : Text) :
    Derivation (Text × List Span) := do
  let segments ← Derivation.expandSegments vars debug depthLimit [] t
  pure (Segment.valueOf segments, Segment.spansFrom 0 segments)

/-- The derived values that commands find in their environment, by name. -/
abbrev Environment := List (Text × Text)

/-- The environment as a command reads it, with its pairs of dollars unescaped. -/
def Environment.unescaped (e : Environment) : Environment :=
  e.map fun v => (v.1, unescapeDollars v.2)

namespace Variables

/-- The values of those entries that derive, in order; the others are left out. -/
def resolveEntries (vars : Variables) : List (Text × Text) → Derivation Environment
  | [] => pure []
  | (name, raw) :: r => do
    let outcome ← (derive vars false raw).attempt
    let rest ← resolveEntries vars r
    pure <| match outcome with
      | .ok value => (name, value) :: rest
      | .error _ => rest

/-- The value of every variable that derives. -/
def resolved (vars : Variables) : Derivation Environment :=
  resolveEntries vars vars.entries

end Variables

end Haybuild
