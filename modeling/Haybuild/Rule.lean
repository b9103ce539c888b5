import Haybuild.Text.Blank
import Haybuild.Text.Lines

/-!
# Rule lines

A rule line is `targets : prerequisites`. A name is a quoted text, which may hold anything but a
quote, or a run of characters that are neither blank, colon nor quote; spaces and tabs separate
names but need not. `lex` cuts a line into names and colons up to the first character that starts
neither, and `Rule.parse` reads the rule, nothing, or the first reason why the line is not a rule.
-/

namespace Haybuild

/-- A rule: what it builds and what must be built before. -/
structure Rule where
  targets : List Text
  prerequisites : List Text
  deriving Repr, DecidableEq

namespace Rule

/-- A place in a text, by line and column, both counted from one. Only a line feed ends a line. -/
structure Position where
  line : Nat
  column : Nat
  deriving Repr, DecidableEq

/-- The place where a text starts. -/
def Position.start : Position := ⟨1, 1⟩

/-- The place after a text. -/
def Position.after (p : Position) : Text → Position
  | [] => p
  | c :: r => Position.after (if c = '\n' then ⟨p.line + 1, 1⟩ else ⟨p.line, p.column + 1⟩) r

/-- A token of a rule line. -/
inductive Token where
  | name (text : Text)
  | colon
  /-- A character where no token starts. -/
  | stray (c : Char)
  deriving Repr, DecidableEq

/-- A token and the place where it starts. -/
structure Lexeme where
  token : Token
  place : Position
  deriving Repr, DecidableEq

/-- The character can stand in a name without quotes. -/
def isNameChar (c : Char) : Bool :=
  !Text.isBlank c && c ≠ ':' && c ≠ '\''

theorem length_snd_of_splitAt? {c : Char} {t : Text} {s : Text × Text}
    (h : Text.splitAt? c t = some s) : s.2.length < t.length := by
  induction t generalizing s with
  | nil => simp [Text.splitAt?] at h
  | cons d r ih =>
    simp only [Text.splitAt?] at h
    split at h
    · cases h; simp
    · obtain ⟨u, hu, rfl⟩ := Option.map_eq_some_iff.1 h
      have := ih hu
      simp only [List.length_cons]
      omega

theorem length_dropWhile_le (p : Char → Bool) (t : Text) : (t.dropWhile p).length ≤ t.length :=
  (List.dropWhile_suffix p).length_le

/-- The tokens of a text that starts at a place, up to the first stray character. -/
def lex (place : Position) : Text → List Lexeme
  | [] => []
  | c :: r =>
    if c = ' ' || c = '\t' then lex (place.after [c]) r
    else if c = ':' then ⟨.colon, place⟩ :: lex (place.after [c]) r
    else if c = '\'' then
      match h : Text.splitAt? '\'' r with
      | some (name, rest) =>
        have := length_snd_of_splitAt? h
        ⟨.name name, place⟩ :: lex (place.after (c :: name ++ [c])) rest
      | none => [⟨.stray c, place⟩]
    else if Text.isBlank c then [⟨.stray c, place⟩]
    else
      have := length_dropWhile_le isNameChar r
      let name := c :: r.takeWhile isNameChar
      ⟨.name name, place⟩ :: lex (place.after name) (r.dropWhile isNameChar)
termination_by t => t.length
decreasing_by all_goals (simp only [List.length_cons] at *; omega)

/-- Why a line is not a rule. -/
inductive Fault where
  /-- A colon where none may stand. -/
  | colon (place : Position)
  /-- The line ends before a colon; the place is that of its last token. -/
  | ended (place : Position)
  /-- A character where no token starts. -/
  | stray (c : Char) (place : Position)
  deriving Repr, DecidableEq

/-- The place of a fault. -/
def Fault.place : Fault → Position
  | .colon place | .ended place | .stray _ place => place

/-- A place as messages give it, with the word for the column. -/
def Position.render (p : Position) (column : Text) : Text :=
  "at line " ++ Text.ofNat p.line ++ column ++ Text.ofNat p.column

/-- The words of a fault. A stray line terminator ends the message, which is a single line. -/
def Fault.message : Fault → Text
  | .colon place =>
    "malformed rule: Unexpected token Token('COLON', ':') " ++ place.render ", column " ++ "."
  | .ended place =>
    "malformed rule: Unexpected token Token('$END', '') " ++ place.render ", column " ++ "."
  | .stray c place =>
    if Text.isTerminator c then "malformed rule: No terminal matches '"
    else
      "malformed rule: No terminal matches '" ++ [c] ++ "' in the current parser context, " ++
        place.render " col "

/-- Reads the names after the colon. -/
def readPrerequisites : List Lexeme → Except Fault (List Text)
  | [] => .ok []
  | ⟨.name n, _⟩ :: r =>
    match readPrerequisites r with
    | .ok ns => .ok (n :: ns)
    | .error e => .error e
  | ⟨.colon, place⟩ :: _ => .error (.colon place)
  | ⟨.stray c, place⟩ :: _ => .error (.stray c place)

/-- Reads the targets that follow a name at `last`, and the rest of the rule. -/
def readTargets (last : Position) : List Lexeme → Except Fault Rule
  | [] => .error (.ended last)
  | ⟨.name n, place⟩ :: r =>
    match readTargets place r with
    | .ok rule => .ok { rule with targets := n :: rule.targets }
    | .error e => .error e
  | ⟨.colon, _⟩ :: r =>
    match readPrerequisites r with
    | .ok ns => .ok ⟨[], ns⟩
    | .error e => .error e
  | ⟨.stray c, place⟩ :: _ => .error (.stray c place)

/-- Reads the tokens of a line. -/
def ofLexemes : List Lexeme → Except Fault (Option Rule)
  | [] => .ok none
  | ⟨.name n, place⟩ :: r =>
    match readTargets place r with
    | .ok rule => .ok (some { rule with targets := n :: rule.targets })
    | .error e => .error e
  | ⟨.colon, place⟩ :: _ => .error (.colon place)
  | ⟨.stray c, place⟩ :: _ => .error (.stray c place)

/-- Reads a rule line. A line of spaces and tabs holds no rule. -/
def parse (t : Text) : Except Fault (Option Rule) :=
  ofLexemes (lex .start t)

end Rule

end Haybuild
