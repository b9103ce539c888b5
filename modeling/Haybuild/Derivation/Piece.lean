import Haybuild.Text.Basic

/-!
# The pieces of a text

A text to derive is a row of pieces: `$$` pairs, references `$(…)` and `${…}`, other characters, and
at its end perhaps a reference that is not closed. A reference runs to the bracket of its own kind
that balances it. `pieces` cuts a text; `flatMap_source_pieces` says that nothing is lost.
-/

namespace Haybuild

/-- The two kinds of bracket that can follow a dollar. -/
inductive Bracket where
  | round
  | curly
  deriving Repr, DecidableEq

namespace Bracket

/-- The opening character. -/
def opener : Bracket → Char
  | round => '('
  | curly => '\x7b'

/-- The closing character. -/
def closer : Bracket → Char
  | round => ')'
  | curly => '\x7d'

/-- The bracket that a character opens. -/
def ofOpener? (c : Char) : Option Bracket :=
  if c = '(' then some round else if c = '\x7b' then some curly else none

theorem opener_of_ofOpener? {c : Char} {b : Bracket} (h : ofOpener? c = some b) : b.opener = c := by
  simp only [ofOpener?] at h
  split at h
  · cases h; simp_all [opener]
  · split at h
    · cases h; simp_all [opener]
    · simp at h

/-- What stands before and after the closer that balances a bracket opened before the text, with
`level` further brackets of its kind open. -/
def close? (b : Bracket) : Nat → Text → Option (Text × Text)
  | _, [] => none
  | level, c :: r =>
    if c = b.closer then
      match level with
      | 0 => some ([], r)
      | level + 1 => (close? b level r).map fun s => (c :: s.1, s.2)
    else
      (close? b (if c = b.opener then level + 1 else level) r).map fun s => (c :: s.1, s.2)

theorem eq_of_close? {b : Bracket} {level : Nat} {t : Text} {s : Text × Text}
    (h : b.close? level t = some s) : t = s.1 ++ b.closer :: s.2 := by
  induction t generalizing level s with
  | nil => simp [close?] at h
  | cons c r ih =>
    simp only [close?] at h
    split at h
    · next hc =>
      split at h
      · cases h; simp [hc]
      · obtain ⟨u, hu, rfl⟩ := Option.map_eq_some_iff.1 h
        simpa using ih hu
    · obtain ⟨u, hu, rfl⟩ := Option.map_eq_some_iff.1 h
      simpa using ih hu

end Bracket

/-- A reference: its kind of bracket and the text between the brackets. -/
structure Reference where
  bracket : Bracket
  body : Text
  deriving Repr, DecidableEq

/-- A reference as it is written. -/
def Reference.source (ref : Reference) : Text :=
  '$' :: ref.bracket.opener :: ref.body ++ [ref.bracket.closer]

/-- A piece of a text to derive. -/
inductive Piece where
  | literal (c : Char)
  /-- Two dollars, which stand for one where a shell reads them. -/
  | pair
  | reference (ref : Reference)
  /-- A bracket opened after a dollar and never closed, and what follows it. -/
  | unterminated (bracket : Bracket) (rest : Text)
  deriving Repr, DecidableEq

namespace Piece

/-- A piece as it is written. -/
def source : Piece → Text
  | literal c => [c]
  | pair => ['$', '$']
  | reference ref => ref.source
  | unterminated b rest => '$' :: b.opener :: rest

/-- The piece that starts with a dollar, and the text after it. -/
def afterDollar : Text → Piece × Text
  | [] => (literal '$', [])
  | c :: r =>
    if c = '$' then (pair, r)
    else
      match Bracket.ofOpener? c with
      | none => (literal '$', c :: r)
      | some b =>
        match b.close? 0 r with
        | some (body, rest) => (reference ⟨b, body⟩, rest)
        | none => (unterminated b r, [])

/-- The first piece of a text that starts with `c`, and the text after it. -/
def first (c : Char) (r : Text) : Piece × Text :=
  if c = '$' then afterDollar r else (literal c, r)

theorem source_afterDollar (r : Text) :
    (afterDollar r).1.source ++ (afterDollar r).2 = '$' :: r := by
  cases r with
  | nil => rfl
  | cons c r =>
    simp only [afterDollar]
    split
    · next h => simp [source, h]
    · split
      · rfl
      · next b hb =>
        have ho := Bracket.opener_of_ofOpener? hb
        split
        · next s h => simp [source, Reference.source, ho, Bracket.eq_of_close? h]
        · simp [source, ho]

theorem source_first (c : Char) (r : Text) : (first c r).1.source ++ (first c r).2 = c :: r := by
  by_cases h : c = '$'
  · simp [first, h, source_afterDollar]
  · simp [first, h, source]

theorem length_source_pos (p : Piece) : 0 < p.source.length := by
  cases p <;> simp [source, Reference.source]

theorem length_snd_first_le (c : Char) (r : Text) : (first c r).2.length ≤ r.length := by
  have h := congrArg List.length (source_first c r)
  have := (first c r).1.length_source_pos
  simp only [List.length_append, List.length_cons] at h
  omega

end Piece

/-- The pieces of a text, from left to right. -/
def pieces : Text → List Piece
  | [] => []
  | c :: r =>
    have := Piece.length_snd_first_le c r
    (Piece.first c r).1 :: pieces (Piece.first c r).2
termination_by t => t.length
decreasing_by simp only [List.length_cons]; omega

@[simp] theorem pieces_nil : pieces [] = [] := by
  rw [pieces]

theorem pieces_cons (c : Char) (r : Text) :
    pieces (c :: r) = (Piece.first c r).1 :: pieces (Piece.first c r).2 := by
  rw [pieces]

theorem flatMap_source_pieces (t : Text) : (pieces t).flatMap Piece.source = t := by
  fun_induction pieces t with
  | case1 => rfl
  | case2 c r _ ih => simp [ih, Piece.source_first]

end Haybuild
