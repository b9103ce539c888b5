import Haybuild.Shell.Program.Lines
import Haybuild.Shell.Regex

/-!
# Searching lines

`grep` writes the lines of files that match one of some expressions, or tells about them.
-/

namespace Haybuild

namespace Shell

namespace Program

open Shell.Task

/-- What lines are searched for. -/
structure Search where
  expressions : List Regex
  folds : Bool
  /-- A match is a line of its own, or a word of its own. -/
  wholeLine : Bool
  wholeWord : Bool

namespace Search

/-- A match stands between characters that belong to no word. -/
def isWord (text : Raw) (m : Regex.Match) : Bool :=
  let before := m.start ≠ 0 && (text[m.start - 1]?).any Regex.isWordChar
  let after := (text[m.stop]?).any Regex.isWordChar
  !before && !after

/-- The first match of an expression at or after an offset that fits; the number bounds the tries. -/
def firstOf (s : Search) (line : Raw) (r : Regex) : Nat → Nat → Option Regex.Match
  | 0, _ => none
  | n + 1, offset =>
    match r.find? s.folds line offset with
    | none => none
    | some m =>
      let fits := (!s.wholeLine || m.start = 0 && m.stop = line.length) &&
        (!s.wholeWord || isWord line m)
      if fits then some m else if line.length ≤ m.start then none else firstOf s line r n (m.start + 1)

/-- The first match at or after an offset, the longest of those that start there. -/
def first? (s : Search) (line : Raw) (offset : Nat) : Option Regex.Match :=
  let found := s.expressions.filterMap fun r => firstOf s line r (line.length + 1) offset
  found.foldl (fun best m =>
    match best with
    | none => some m
    | some (b : Regex.Match) =>
      if m.start < b.start || m.start = b.start && b.stop < m.stop then some m else best) none

/-- The matches that are not empty, one after the other; the number bounds them. -/
def all (s : Search) (line : Raw) : Nat → Nat → List Raw
  | 0, _ => []
  | n + 1, offset =>
    match s.first? line offset with
    | none => []
    | some m =>
      let rest := all s line n (max m.stop (m.start + 1))
      if m.start = m.stop then rest else ((line.take m.stop).drop m.start) :: rest

end Search

/-- The files at and below a path, with their contents; what cannot be read is left out. -/
def filesWithin (path : Raw) : Task (List (Raw × Raw)) := do
  let tree := (← get).tree
  match ← locate path with
  | .error _ => return []
  | .ok place =>
    let inside := tree.entries.filterMap fun e =>
      match e.2 with
      | .file content _ =>
        if place.isPrefixOf e.1 then
          let rest := Raw.ofText (Text.join "/" (e.1.drop place.length))
          let slash : Raw := if path.getLast? = some '/' then [] else ['/']
          some (if rest = [] then path else path ++ slash ++ rest, Raw.ofBytes content)
        else none
      | _ => none
    return inside.mergeSort fun a b => Raw.notAfter a.1 b.1

/-- Marks the lines that stand near one that is kept: so many before it, and so many after it. -/
def withContext (before after : Nat) (kept : List Bool) : List Bool :=
  kept.mapIdx fun i _ =>
    ((kept.drop (i - after)).take (min i after + 1 + before)).any id

/-- Writes the lines that match. -/
def grep (fixed extended : Bool) : Program := fun arguments => do
  let a ← Arguments.read
    { flags := "EFGPivclLnqsxwohHrRazbyUI", valued := "efmABCd", status := 2
      names := [("extended-regexp", 'E'), ("fixed-strings", 'F'), ("ignore-case", 'i'),
        ("invert-match", 'v'), ("count", 'c'), ("files-with-matches", 'l'),
        ("files-without-match", 'L'), ("line-number", 'n'), ("quiet", 'q'), ("silent", 'q'),
        ("no-messages", 's'), ("line-regexp", 'x'), ("word-regexp", 'w'), ("only-matching", 'o'),
        ("no-filename", 'h'), ("with-filename", 'H'), ("recursive", 'r'), ("text", 'a'),
        ("regexp", 'e'), ("file", 'f'), ("max-count", 'm'), ("after-context", 'A'),
        ("before-context", 'B'), ("context", 'C'), ("color", 'U'), ("include", 'd')] } arguments
  let mut given := a.values 'e'
  for path in a.values 'f' do
    match ← readPath path with
    | .ok t => given := given ++ Raw.lines t
    | .error cause => fail (path ++ ": " ++ cause.words) 2
  let named := a.has 'e' || a.has 'f'
  if !named && a.operands.isEmpty then
    write 2 "Usage: grep [OPTION]... PATTERNS [FILE]...\n"
    fault 2
    throw ()
  let patterns := (if named then given else a.operands.take 1).flatMap (Text.cut '\n')
  let paths := if named then a.operands else a.operands.drop 1
  let isFixed := a.has 'F' || fixed && !a.has 'E' && !a.has 'G'
  let isExtended := a.has 'E' || a.has 'P' || extended && !a.has 'G'
  let expressions ← patterns.mapM fun p =>
    if isFixed then pure (Regex.ofText p)
    else
      match Regex.parse? isExtended p with
      | some r => pure r
      | none => fail "Invalid regular expression" 2
  let s : Search := ⟨expressions, a.has 'i' || a.has 'y', a.has 'x', a.has 'w'⟩
  let number (c : Char) : Option Nat := (a.value? c).bind Raw.nat?
  let recursive := a.has 'r' || a.has 'R'
  let mut contents : List (Raw × Raw) := []
  let mut quietFault := false
  for path in if paths.isEmpty then [if recursive then ".".toList else "-".toList] else paths do
    if recursive && path ≠ "-" && (← isDirectory path) then
      let inside ← filesWithin path
      let shown := if paths.isEmpty then inside.map fun f => (f.1.drop 2, f.2) else inside
      contents := contents ++ shown
    else
      match ← readPath path with
      | .ok t =>
        contents := contents ++ [(if path = "-" then "(standard input)".toList else path, t)]
      | .error cause =>
        quietFault := true
        unless a.has 's' do
          note (path ++ ": " ++ cause.words)
  let titled := (1 < paths.length || recursive) && !a.has 'h' || a.has 'H'
  let before := ((number 'B').or (number 'C')).getD 0
  let after := ((number 'A').or (number 'C')).getD 0
  let mut selected := false
  let mut separated := false
  for (path, t) in contents do
    let lines := Raw.lines t
    let hits := lines.map fun line => (s.first? line 0).isSome != a.has 'v'
    let hits := match number 'm' with
      | some most => (hits.foldl (fun (n, done) h =>
          if h && n < most then (n + 1, true :: done) else (n, false :: done))
          (0, ([] : List Bool))).2.reverse
      | none => hits
    let count := hits.count true
    if 0 < count then
      selected := true
    let head (mark : Char) (i : Nat) : Raw :=
      (if titled then path ++ [mark] else []) ++
        if a.has 'n' then Text.ofNat (i + 1) ++ [mark] else []
    if a.has 'q' then pure ()
    else if a.has 'l' then
      if 0 < count then
        say (path ++ "\n")
    else if a.has 'L' then
      if count = 0 then
        say (path ++ "\n")
    else if a.has 'c' then
      say ((if titled then path ++ ":" else []) ++ Text.ofNat count ++ "\n")
    else
      let near := withContext before after hits
      let mut last : Option Nat := none
      for ((line, hit, shown), i) in (lines.zip (hits.zip near)).zipIdx do
        if shown then
          let gap := match last with
            | some j => j + 1 < i
            | none => separated
          if gap && 0 < before + after then
            say "--\n"
          last := some i
          separated := true
          if a.has 'o' then
            if hit && !a.has 'v' then
              for m in s.all line (line.length + 1) 0 do
                say (head ':' i ++ m ++ "\n")
          else say (head (if hit then ':' else '-') i ++ line ++ "\n")
  let chosen := if a.has 'L' then !selected else selected
  if quietFault && !(a.has 'q' && chosen) then fault 2
  else unless chosen do
    fault 1

end Program

end Shell

end Haybuild
