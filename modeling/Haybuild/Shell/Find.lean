import Haybuild.Shell.Launch
import Haybuild.Shell.Pattern

/-!
# Finding files

`find` walks through directories and judges what it meets by criteria. Some criteria do something:
they show the path, take the file away or start a program.
-/

namespace Haybuild

namespace Shell

namespace Launcher

open Act

/-- What a found file is judged by. -/
inductive Criterion where
  | always
  | never
  /-- The last component of the path, or all of it, matches a pattern. -/
  | matched (pattern : Raw) (folds whole : Bool)
  | kind (letters : Raw)
  | empty
  /-- The size in units, rounded up, is this number, or with a sign less or more. -/
  | size (sign : Option Char) (n unit : Nat)
  | write (ending : Char)
  | delete
  | prune
  | quit
  | start (words : List Raw) (together : Bool)
  | negation (c : Criterion)
  | both (a b : Criterion)
  | either (a b : Criterion)

namespace Criterion

/-- The criterion does something, so that paths need not be shown as well. -/
def acts : Criterion → Bool
  | write _ | delete | quit | start .. => true
  | negation c => c.acts
  | both a b | either a b => a.acts || b.acts
  | _ => false

/-- The criterion takes files away, so that directories come after what is in them. -/
def deletes : Criterion → Bool
  | delete => true
  | negation c => c.deletes
  | both a b | either a b => a.deletes || b.deletes
  | _ => false

/-- The commands that are started once for all files. -/
def collecting : Criterion → List (List Raw)
  | start words true => [words]
  | negation c => c.collecting
  | both a b | either a b => a.collecting ++ b.collecting
  | _ => []

mutual

/-- Reads criteria of which one must hold. -/
def read : Nat → List Raw → Option (Criterion × List Raw)
  | 0, _ => none
  | n + 1, words =>
    match readBoth n words with
    | none => none
    | some (a, rest) =>
      match rest with
      | o :: more =>
        if o = "-o" || o = "-or" then (read n more).map fun (b, rest) => (.either a b, rest)
        else some (a, rest)
      | [] => some (a, [])

/-- Reads criteria that must all hold. -/
def readBoth : Nat → List Raw → Option (Criterion × List Raw)
  | 0, _ => none
  | n + 1, words =>
    match readOne n words with
    | none => none
    | some (a, rest) =>
      match rest with
      | [] => some (a, [])
      | o :: more =>
        if o = "-o" || o = "-or" || o = ")" then some (a, rest)
        else
          let rest := if o = "-a" || o = "-and" then more else rest
          (readBoth n rest).map fun (b, rest) => (.both a b, rest)

/-- Reads one criterion. -/
def readOne : Nat → List Raw → Option (Criterion × List Raw)
  | 0, _ => none
  | _ + 1, [] => none
  | n + 1, o :: rest =>
    let value (f : Raw → Option Criterion) : Option (Criterion × List Raw) :=
      match rest with
      | v :: rest => (f v).map fun c => (c, rest)
      | [] => none
    if o = "!" || o = "-not" then (readOne n rest).map fun (c, rest) => (.negation c, rest)
    else if o = "(" then
      match read n rest with
      | some (c, close :: rest) => if close = ")" then some (c, rest) else none
      | _ => none
    else if o = "-name" then value fun v => some (.matched v false false)
    else if o = "-iname" then value fun v => some (.matched v true false)
    else if o = "-path" || o = "-wholename" then value fun v => some (.matched v false true)
    else if o = "-ipath" then value fun v => some (.matched v true true)
    else if o = "-type" then value fun v => some (.kind v)
    else if o = "-maxdepth" || o = "-mindepth" || o = "-newer" || o = "-mtime" || o = "-mmin" ||
      o = "-perm" || o = "-user" then value fun _ => some .always
    else if o = "-empty" then some (.empty, rest)
    else if o = "-print" then some (.write '\n', rest)
    else if o = "-print0" then some (.write '\x00', rest)
    else if o = "-delete" then some (.delete, rest)
    else if o = "-prune" then some (.prune, rest)
    else if o = "-quit" then some (.quit, rest)
    else if o = "-true" || o = "-depth" then some (.always, rest)
    else if o = "-false" then some (.never, rest)
    else if o = "-size" then
      value fun v =>
        let (sign, v) := match v with
          | '+' :: r => (some '+', r)
          | '-' :: r => (some '-', r)
          | r => (none, r)
        let digits := v.takeWhile Char.isDigit
        let unit : Option Nat := match v.drop digits.length with
          | [] | ['b'] => some 512
          | ['c'] => some 1
          | ['w'] => some 2
          | ['k'] => some 1024
          | ['M'] => some 1048576
          | _ => none
        match Raw.nat? digits, unit with
        | some n, some unit => some (.size sign n unit)
        | _, _ => none
    else if o = "-exec" || o = "-execdir" || o = "-ok" then
      let words := rest.takeWhile fun w => w ≠ [';'] && w ≠ ['+']
      match rest.drop words.length with
      | close :: rest => some (.start words (close = ['+']), rest)
      | [] => none
    else none

end

end Criterion

/-- A file that was found. -/
structure FoundFile where
  path : Raw
  place : Location
  entry : FileTree.Entry

/-- The course of a search. -/
structure Finding where
  pruned : Bool := false
  finished : Bool := false
  /-- The paths for the commands that are started once. -/
  collected : List (List Raw × Raw) := []
  status : Nat := 0

/-- Judges a file. -/
def judge (run : Runner) (f : FoundFile) : Criterion → Finding → Act (Bool × Finding)
  | .always, s => return (true, s)
  | .never, s => return (false, s)
  | .matched pattern folds whole, s => do
    let t := if whole then f.path else Program.lastComponent f.path
    let fold (t : Raw) : Raw := if folds then t.map Char.toLower else t
    let gs := Pattern.row true ((fold pattern).map fun c => (c, false))
    return (FilePattern.Glyph.matchAll gs (fold t), s)
  | .kind letters, s =>
    let letter := match f.entry with
      | .directory => 'd'
      | .link _ => 'l'
      | .device _ => 'c'
      | _ => 'f'
    return (letters.contains letter, s)
  | .empty, s => do
    let tree := (← get).tree
    return (match f.entry with
      | .directory => (tree.namesAt f.place).isEmpty
      | .file content _ => content.isEmpty
      | _ => false, s)
  | .size sign n unit, s =>
    let size := match f.entry with
      | .file content _ => content.length
      | .directory => 4096
      | _ => 0
    let units := (size + unit - 1) / unit
    return (if sign = some '+' then n < units else if sign = some '-' then units < n
      else units = n, s)
  | .write ending, s => do
    discard <| emit 1 (f.path ++ [ending])
    return (true, s)
  | .delete, s => do
    let tree := (← get).tree
    if f.path = "." then return (true, s)
    else if f.entry = .directory && !(tree.namesAt f.place).isEmpty then
      note "find" ("cannot delete '" ++ f.path ++ "': Directory not empty")
      return (false, { s with status := 1 })
    else
      modify fun s => { s with tree := s.tree.erase f.place }
      return (true, s)
  | .prune, s => return (true, { s with pruned := true })
  | .quit, s => return (true, { s with finished := true })
  | .start words true, s =>
    return (true, { s with collected := (words, f.path) :: s.collected })
  | .start words false, s => do
    withoutInput <| launch run <| words.map fun w =>
      fill "\x7b\x7d" f.path (w.length + 1) w
    return ((← get).status = 0, s)
  | .negation c, s => do
    let (v, s) ← judge run f c s
    return (!v, s)
  | .both a b, s => do
    let (v, s) ← judge run f a s
    if v then judge run f b s else return (false, s)
  | .either a b, s => do
    let (v, s) ← judge run f a s
    if v then return (true, s) else judge run f b s

/-- Walks through a file and what is in it. The first number bounds how deep, and `depth` tells how
deep it is already. -/
def walk (run : Runner) (c : Criterion) (least : Nat) (most : Option Nat) :
    Nat → Nat → FoundFile → Finding → Act Finding
  | 0, _, _, s => return s
  | n + 1, depth, f, s => do
    if s.finished then return s
    else
      let visit (s : Finding) : Act Finding := do
        if depth < least then return s
        else
          let (_, s) ← judge run f c { s with pruned := false }
          return s
      let within (s : Finding) : Act Finding := do
        let tree := (← get).tree
        if f.entry ≠ .directory || most.any (· ≤ depth) || s.pruned then
          return { s with pruned := false }
        else
          let names := (tree.namesAt f.place).map fun name => (Raw.ofText name, name)
          (names.mergeSort fun a b => Raw.notAfter a.1 b.1).foldlM (fun s (raw, name) => do
            match (← get).tree.entry? (f.place ++ [name]) with
            | some entry =>
              walk run c least most n (depth + 1)
                ⟨Program.below f.path raw, f.place ++ [name], entry⟩ s
            | none => return s) s
      if c.deletes then visit (← within s) else within (← visit s)

/-- The number behind an option. -/
def depthOf (name : Raw) : List Raw → Option Nat
  | o :: v :: rest => if o = name then Raw.nat? v else depthOf name (v :: rest)
  | _ => none

/-- Finds files. -/
def find (run : Runner) (name : Raw) (arguments : List Raw) : Act Unit := do
  let isCriterion (t : Raw) : Bool :=
    t.head? = some '-' && 1 < t.length || t = "(" || t = "!"
  let arguments := arguments.filter fun t => t ≠ ['-', 'L'] && t ≠ ['-', 'P'] && t ≠ ['-', 'H']
  let paths := arguments.takeWhile fun t => !isCriterion t
  let words := arguments.drop paths.length
  let parsed := if words.isEmpty then some (Criterion.always, [])
    else Criterion.read (8 * words.length + 8) words
  match parsed with
  | some (c, []) =>
    let c := if c.acts then c else .both c (.write '\n')
    let least := (depthOf "-mindepth" words).getD 0
    let most := depthOf "-maxdepth" words
    let s ← (if paths.isEmpty then [['.']] else paths).foldlM (fun s path => do
      let session ← get
      match session.tree.locateFrom false session.directory (Raw.toText path) with
      | .ok place =>
        match session.tree.entry? place with
        | some entry =>
          walk run c least most (session.tree.entries.length + 1) 0 ⟨path, place, entry⟩ s
        | none =>
          note name ("'" ++ path ++ "': " ++ PathCause.notFound.words)
          return { s with status := 1 }
      | .error cause =>
        note name ("'" ++ path ++ "': " ++ cause.words)
        return { s with status := 1 }) ({} : Finding)
    for command in c.collecting do
      let found := s.collected.reverse.filterMap fun p => if p.1 = command then some p.2 else none
      unless found.isEmpty do
        withoutInput <| launch run <| command.flatMap fun (w : Raw) =>
          if w = "\x7b\x7d" then found else [w]
    finish s.status
  | _ =>
    note name "invalid expression"
    finish 1

end Launcher

end Shell

end Haybuild
