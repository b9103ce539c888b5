/-!
# Texts

A text is a list of characters, so that every offset, column and length counts characters. This
module holds the vocabulary the rest of the library speaks: joining, prefixes and suffixes
(`stripPrefix?`, `stripSuffix?`), cutting at a character (`splitAt?`) and decimal numerals.
-/

namespace Haybuild

/-- A text is a list of characters. -/
abbrev Text := List Char

/-- A string literal may stand where a text is expected. -/
instance : Coe String Text := ⟨String.toList⟩

namespace Text

/-- The texts one after the other, with `sep` between neighbours. -/
def join (sep : Text) : List Text → Text
  | [] => []
  | [t] => t
  | t :: u :: r => t ++ sep ++ join sep (u :: r)

@[simp] theorem join_nil (sep : Text) : join sep [] = [] := rfl

@[simp] theorem join_singleton (sep t : Text) : join sep [t] = t := rfl

theorem join_cons_cons (sep t u : Text) (r : List Text) :
    join sep (t :: u :: r) = t ++ sep ++ join sep (u :: r) := rfl

theorem join_cons_head (sep : Text) (c : Char) (t : Text) (r : List Text) :
    join sep ((c :: t) :: r) = c :: join sep (t :: r) := by
  cases r <;> rfl

/-- What follows `p` in a text that starts with `p`. -/
def stripPrefix? : Text → Text → Option Text
  | [], t => some t
  | _ :: _, [] => none
  | p :: ps, c :: r => if p = c then stripPrefix? ps r else none

theorem stripPrefix?_eq_some_iff {p t r : Text} : stripPrefix? p t = some r ↔ t = p ++ r := by
  induction p generalizing t with
  | nil => simp [stripPrefix?, eq_comm]
  | cons p ps ih =>
    cases t with
    | nil => simp [stripPrefix?]
    | cons c t =>
      by_cases h : p = c
      · simp [stripPrefix?, h, ih]
      · simp [stripPrefix?, h, Ne.symm h]

/-- What precedes `s` in a text that ends with `s`. -/
def stripSuffix? (s t : Text) : Option Text :=
  (stripPrefix? s.reverse t.reverse).map List.reverse

theorem stripSuffix?_eq_some_iff {s t r : Text} : stripSuffix? s t = some r ↔ t = r ++ s := by
  simp only [stripSuffix?, Option.map_eq_some_iff, stripPrefix?_eq_some_iff]
  constructor
  · rintro ⟨a, h, rfl⟩
    simpa using congrArg List.reverse h
  · rintro rfl
    exact ⟨r.reverse, by simp⟩

/-- The two sides of the first `c` in a text. -/
def splitAt? (c : Char) : Text → Option (Text × Text)
  | [] => none
  | d :: r => if d = c then some ([], r) else (splitAt? c r).map fun s => (d :: s.1, s.2)

/-- The two sides of the first `c` in a text; all of it is on the left when there is none. -/
def partition (c : Char) (t : Text) : Text × Text :=
  (splitAt? c t).getD (t, [])

/-- The parts of a text between the characters `c`. -/
def cut (c : Char) (t : Text) : List Text :=
  let (part, rest) := t.foldr (fun d (part, rest) =>
    if d = c then ([], part :: rest) else (d :: part, rest)) (([] : Text), ([] : List Text))
  part :: rest

/-- `n` times the character `c`; none for a negative `n`. -/
def fill (c : Char) (n : Int) : Text :=
  List.replicate n.toNat c

/-- The decimal numeral of a natural number. -/
def ofNat (n : Nat) : Text :=
  Nat.toDigits 10 n

/-- The decimal numeral of an integer. -/
def ofInt : Int → Text
  | .ofNat n => ofNat n
  | .negSucc n => '-' :: ofNat (n + 1)

end Text

end Haybuild
