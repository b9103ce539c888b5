import Haybuild.Shell.Raw

/-!
# Regular expressions

`Regex.parse?` reads the two forms of the standard: in the basic form most operators are written
with a backslash, in the extended form without. `Regex.find?` gives the leftmost match of an
expression in a text, of those the longest, with what its groups matched. From every place in the
text an expression is carried to all the places at which it can end, greedy ones first.
-/

namespace Haybuild

namespace Shell

/-- A regular expression. -/
inductive Regex where
  | empty
  | one (p : List (Char × Char)) (negated : Bool)
  | start
  | stop
  /-- A place between a character of a word and one of none; `opens` and `closes` tell which may
  come first. -/
  | edge (opens closes : Bool)
  /-- A place that is no `edge`. -/
  | inside
  | group (number : Nat) (r : Regex)
  /-- What a group matched, once more. -/
  | again (number : Nat)
  | seq (a b : Regex)
  | alt (a b : Regex)
  | repeated (least : Nat) (most : Option Nat) (r : Regex)
  deriving Repr, DecidableEq, Inhabited

namespace Regex

/-! ## Sets of characters -/

/-- The ranges of a class of characters. -/
def classRanges? (name : Raw) : Option (List (Char × Char)) :=
  if name = "alpha" then some [('a', 'z'), ('A', 'Z')]
  else if name = "digit" then some [('0', '9')]
  else if name = "alnum" then some [('a', 'z'), ('A', 'Z'), ('0', '9')]
  else if name = "upper" then some [('A', 'Z')]
  else if name = "lower" then some [('a', 'z')]
  else if name = "space" then some [(' ', ' '), ('\t', '\r')]
  else if name = "blank" then some [(' ', ' '), ('\t', '\t')]
  else if name = "punct" then some [('!', '/'), (':', '@'), ('[', '\x60'), ('\x7b', '~')]
  else if name = "print" then some [(' ', '~')]
  else if name = "graph" then some [('!', '~')]
  else if name = "cntrl" then some [('\x00', '\x1f'), ('\x7f', '\x7f')]
  else if name = "xdigit" then some [('0', '9'), ('a', 'f'), ('A', 'F')]
  else none

/-- The ranges of the characters of words. -/
def wordRanges : List (Char × Char) :=
  [('a', 'z'), ('A', 'Z'), ('0', '9'), ('_', '_')]

/-- The ranges of blanks. -/
def spaceRanges : List (Char × Char) :=
  [(' ', ' '), ('\t', '\r')]

/-- A character lies in one of some ranges. -/
def within (ranges : List (Char × Char)) (c : Char) : Bool :=
  ranges.any fun r => r.1 ≤ c && c ≤ r.2

/-- A character belongs to a word. -/
def isWordChar (c : Char) : Bool :=
  within wordRanges c

/-- Reads a set of characters after its opening bracket, up to the bracket that closes it. -/
def readSet : Nat → Bool → List (Char × Char) → Raw → Option (List (Char × Char) × Raw)
  | 0, _, _, _ => none
  | n + 1, first, done, t =>
    match t with
    | [] => none
    | ']' :: r => if first then readItem n ']' r done else some (done, r)
    | '[' :: ':' :: r =>
      let name := r.takeWhile fun c => c ≠ ':'
      match classRanges? name, r.drop name.length with
      | some ranges, ':' :: ']' :: rest => readSet n false (ranges ++ done) rest
      | _, _ => none
    | '[' :: '.' :: c :: '.' :: ']' :: r | '[' :: '=' :: c :: '=' :: ']' :: r => readItem n c r done
    | '\\' :: 'n' :: r => readSet n false (('\n', '\n') :: ('\\', '\\') :: done) r
    | c :: r => readItem n c r done
where
  /-- Goes on after a character that may be the start of a range. -/
  readItem : Nat → Char → Raw → List (Char × Char) → Option (List (Char × Char) × Raw)
    | 0, _, _, _ => none
    | n + 1, low, r, done =>
      match r with
      | '-' :: ']' :: _ => readSet n false ((low, low) :: done) r
      | '-' :: high :: rest => readSet n false ((low, high) :: done) rest
      | _ => readSet n false ((low, low) :: done) r

/-! ## Reading -/

/-- What is left of a text that is read as an expression, and the number of groups so far. -/
structure Reading where
  rest : Raw
  groups : Nat
  /-- The depth of the groups that are open. -/
  depth : Nat

/-- The number at the front of a text. -/
def number (t : Raw) : Option Nat × Raw :=
  let d := t.takeWhile Char.isDigit
  (Raw.nat? d, t.drop d.length)

/-- Reads the bounds of a repetition after the opening brace. -/
def bounds? (extended : Bool) (t : Raw) : Option (Nat × Option Nat × Raw) :=
  let close (r : Raw) : Option Raw :=
    if extended then Text.stripPrefix? "\x7d" r else Text.stripPrefix? "\\\x7d" r
  let (least, r) := number t
  match r with
  | ',' :: r =>
    let (most, r) := number r
    if least.isNone && most.isNone then none
    else (close r).map fun r => (least.getD 0, most, r)
  | r =>
    match least with
    | some n => (close r).map fun r => (n, some n, r)
    | none => none

/-- Reads an operator that repeats what is before it. -/
def repetition? (extended : Bool) (t : Raw) : Option (Nat × Option Nat × Raw) :=
  match t with
  | '*' :: r => some (0, none, r)
  | '+' :: r => if extended then some (1, none, r) else none
  | '?' :: r => if extended then some (0, some 1, r) else none
  | '\x7b' :: r => if extended then bounds? true r else none
  | '\\' :: '+' :: r => if extended then none else some (1, none, r)
  | '\\' :: '?' :: r => if extended then none else some (0, some 1, r)
  | '\\' :: '\x7b' :: r => if extended then none else bounds? false r
  | _ => none

/-- The expression of one character. -/
def literal (c : Char) : Regex :=
  .one [(c, c)] false

/-- The expression that a backslash makes of a character. -/
def escaped (c : Char) : Regex :=
  if c = 'w' then .one wordRanges false
  else if c = 'W' then .one wordRanges true
  else if c = 's' then .one spaceRanges false
  else if c = 'S' then .one spaceRanges true
  else if c = 'b' then .edge true true
  else if c = 'B' then .inside
  else if c = '<' then .edge true false
  else if c = '>' then .edge false true
  else if c = 'n' then literal '\n'
  else if c = 't' then literal '\t'
  else if c.isDigit then .again (c.toNat - 48)
  else literal c

/-- The rest starts with what opens a group, closes one, or separates alternatives. -/
def opens? (extended : Bool) (t : Raw) : Option Raw :=
  if extended then Text.stripPrefix? "(" t else Text.stripPrefix? "\\(" t

@[inherit_doc opens?]
def closes? (extended : Bool) (t : Raw) : Option Raw :=
  if extended then Text.stripPrefix? ")" t else Text.stripPrefix? "\\)" t

@[inherit_doc opens?]
def separates? (extended : Bool) (t : Raw) : Option Raw :=
  if extended then Text.stripPrefix? "|" t else Text.stripPrefix? "\\|" t

mutual

/-- Reads alternatives. -/
def readAlternatives (extended : Bool) : Nat → Reading → Option (Regex × Reading)
  | 0, _ => none
  | n + 1, s =>
    match readSequence extended n true .empty s with
    | none => none
    | some (a, s) =>
      match separates? extended s.rest with
      | none => some (a, s)
      | some rest =>
        (readAlternatives extended n { s with rest }).map fun (b, s) => (.alt a b, s)

/-- Reads what follows one after the other; `done` was read before, and `first` tells that nothing
was. -/
def readSequence (extended : Bool) : Nat → Bool → Regex → Reading → Option (Regex × Reading)
  | 0, _, _, _ => none
  | n + 1, first, done, s =>
    let ends := s.rest.isEmpty || (separates? extended s.rest).isSome ||
      (0 < s.depth && (closes? extended s.rest).isSome)
    if ends then some (done, s)
    else
      match readAtom extended n first s with
      | none => none
      | some (a, s) =>
        let anchor := a = .start && !extended
        if anchor then readSequence extended n true (.seq done a) s
        else
          match readRepeats extended n a s with
          | (a, s) => readSequence extended n false (.seq done a) s

/-- Reads the operators that repeat what was read. -/
def readRepeats (extended : Bool) : Nat → Regex → Reading → Regex × Reading
  | 0, a, s => (a, s)
  | n + 1, a, s =>
    match repetition? extended s.rest with
    | none => (a, s)
    | some (least, most, rest) => readRepeats extended n (.repeated least most a) { s with rest }

/-- Reads one part of an expression. -/
def readAtom (extended : Bool) : Nat → Bool → Reading → Option (Regex × Reading)
  | 0, _, _ => none
  | n + 1, first, s =>
    match opens? extended s.rest with
    | some rest =>
      let k := s.groups + 1
      match readAlternatives extended n ⟨rest, k, s.depth + 1⟩ with
      | none => none
      | some (a, inner) =>
        (closes? extended inner.rest).map fun rest =>
          (.group k a, { inner with rest, depth := s.depth })
    | none =>
      match s.rest with
      | [] => none
      | '.' :: rest => some (.one [] true, { s with rest })
      | '[' :: '^' :: rest =>
        (readSet (4 * rest.length + 4) true [] rest).map fun (ranges, rest) =>
          (.one ranges true, { s with rest })
      | '[' :: rest =>
        (readSet (4 * rest.length + 4) true [] rest).map fun (ranges, rest) =>
          (.one ranges false, { s with rest })
      | '^' :: rest =>
        if extended || first then some (.start, { s with rest })
        else some (literal '^', { s with rest })
      | '$' :: rest =>
        let last := rest.isEmpty || (separates? extended rest).isSome ||
          (closes? extended rest).isSome
        if extended || last then some (.stop, { s with rest })
        else some (literal '$', { s with rest })
      | ['\\'] => none
      | '\\' :: ')' :: rest => if extended then some (literal ')', { s with rest }) else none
      | '\\' :: c :: rest => some (escaped c, { s with rest })
      | c :: rest => some (literal c, { s with rest })

end

/-- Reads an expression. -/
def parse? (extended : Bool) (t : Raw) : Option Regex :=
  match readAlternatives extended (8 * t.length + 16) ⟨t, 0, 0⟩ with
  | some (r, s) => if s.rest.isEmpty then some r else none
  | none => none

/-- An expression that matches a text itself. -/
def ofText (t : Raw) : Regex :=
  t.foldr (fun c r => .seq (literal c) r) .empty

/-! ## Matching -/

/-- A place that a match has reached. -/
structure Reached where
  offset : Nat
  previous : Option Char
  rest : Raw
  /-- What the groups matched, last first: the number, and the offsets of start and end. -/
  groups : List (Nat × Nat × Nat)
  deriving DecidableEq

/-- A place that was not reached before by another way. -/
def distinct (places : List Reached) : List Reached :=
  let (_, kept) := places.foldl (fun (seen, kept) p =>
    if List.elem p.offset seen then (seen, kept) else (p.offset :: seen, p :: kept))
    (([] : List Nat), [])
  kept.reverse

/-- The places that so many steps more can reach, those of most steps first. Steps that go nowhere
are left out once there were enough. -/
def steps (step : Reached → List Reached) : Nat → Nat → Option Nat → List Reached → List Reached
  | 0, _, _, places => places
  | n + 1, least, most, places =>
    if places.isEmpty || most = some 0 then if least = 0 then places else []
    else
      let next := distinct <| places.flatMap fun p =>
        (step p).filter fun q => 0 < least || p.offset < q.offset
      let further := steps step n (least - 1) (most.map (· - 1)) next
      if least = 0 then further ++ places else further

/-- A match compares characters as they are, or does not tell large letters from small ones. -/
def same (folds : Bool) (a b : Char) : Bool :=
  a = b || folds && a.toLower = b.toLower

/-- The places to which an expression carries a place. -/
def reach (folds : Bool) (whole : Raw) : Regex → Reached → List Reached
  | .empty, p => [p]
  | .one ranges negated, p =>
    match p.rest with
    | [] => []
    | c :: rest =>
      let found := within ranges c ||
        folds && (within ranges c.toLower || within ranges c.toUpper)
      if found != negated then [⟨p.offset + 1, some c, rest, p.groups⟩] else []
  | .start, p => if p.offset = 0 then [p] else []
  | .stop, p => if p.rest.isEmpty then [p] else []
  | .edge opens closes, p =>
    let before := p.previous.any isWordChar
    let after := p.rest.head?.any isWordChar
    if (opens && !before && after) || (closes && before && !after) then [p] else []
  | .inside, p => if p.previous.any isWordChar = p.rest.head?.any isWordChar then [p] else []
  | .group k r, p =>
    (reach folds whole r p).map fun q =>
      { q with groups := (k, p.offset, q.offset) :: q.groups.filter fun g => g.1 ≠ k }
  | .again k, p =>
    match p.groups.lookup k with
    | none => []
    | some (low, high) =>
      let t := (whole.take high).drop low
      let here := p.rest.take t.length
      if here.length = t.length && (here.zip t).all fun (a, b) => same folds a b then
        [⟨p.offset + t.length, t.getLast?.or p.previous, p.rest.drop t.length, p.groups⟩]
      else []
  | .seq a b, p => distinct ((reach folds whole a p).flatMap (reach folds whole b))
  | .alt a b, p => distinct (reach folds whole a p ++ reach folds whole b p)
  | .repeated least most r, p =>
    distinct (steps (reach folds whole r) (p.rest.length + least + 1) least most [p])

/-- A match: the offsets of its start and end, and what the groups matched. -/
structure Match where
  start : Nat
  stop : Nat
  groups : List (Nat × Nat × Nat)

/-- The longest match from a place. -/
def matchAt? (r : Regex) (folds : Bool) (whole : Raw) (p : Reached) : Option Match :=
  let longest := (reach folds whole r p).foldl (fun best q =>
    match best with
    | some b => if (b : Reached).offset < q.offset then some q else best
    | none => some q) none
  longest.map fun q => ⟨p.offset, q.offset, q.groups⟩

/-- The leftmost match that starts at a place or after it. -/
def findFrom? (r : Regex) (folds : Bool) (whole : Raw) :
    Nat → Option Char → Raw → Option Match
  | offset, previous, rest =>
    match matchAt? r folds whole ⟨offset, previous, rest, []⟩, rest with
    | some m, _ => some m
    | none, [] => none
    | none, c :: rest => findFrom? r folds whole (offset + 1) (some c) rest

/-- The leftmost match in a text that starts at an offset or after it. -/
def find? (r : Regex) (folds : Bool) (whole : Raw) (offset : Nat) : Option Match :=
  findFrom? r folds whole offset
    (if offset = 0 then none else whole[offset - 1]?) (whole.drop offset)

/-- What a match or one of its groups matched. -/
def Match.text? (m : Match) (whole : Raw) (group : Nat) : Option Raw :=
  let span (low high : Nat) : Raw := (whole.take high).drop low
  if group = 0 then some (span m.start m.stop)
  else (m.groups.lookup group).map fun (low, high) => span low high

end Regex

end Shell

end Haybuild
