import Haybuild.FilePattern
import Haybuild.Shell.Session

/-!
# Patterns of the shell

In a pattern of the shell `*` stands for any characters, `?` for one and `[…]` for one of a class,
unless they are quoted. `Pattern.row` reads a pattern, `Pattern.removeMatch` takes away the part of a
text that matches one, and `Pattern.paths` finds the paths that a pattern names.
-/

namespace Haybuild

namespace Shell

/-- Characters, each with a mark that tells whether it is quoted. -/
abbrev Marked := List (Char × Bool)

namespace Pattern

open FilePattern

/-- The characters of the classes that have names, as ranges. -/
def namedClasses : List (Raw × List Member) :=
  let digit : Member := .range '0' '9'
  let upper : Member := .range 'A' 'Z'
  let lower : Member := .range 'a' 'z'
  [("alpha", [upper, lower]), ("digit", [digit]), ("alnum", [digit, upper, lower]),
    ("upper", [upper]), ("lower", [lower]), ("space", [.one ' ', .range '\t' '\r']),
    ("blank", [.one ' ', .one '\t']), ("punct", [.range '!' '/', .range ':' '@', .range '[' '\x60',
      .range '\x7b' '~']), ("print", [.range ' ' '~']), ("graph", [.range '!' '~']),
    ("cntrl", [.range '\x00' '\x1f', .one '\x7f']),
    ("xdigit", [digit, .range 'A' 'F', .range 'a' 'f'])]

/-- The class whose name stands at the front, as in `[:alpha:]`, and the text after it. -/
def namedClass? (t : Marked) : Option (List Member × Marked) :=
  match t with
  | ('[', false) :: (':', _) :: r =>
    let name := (r.takeWhile fun c => c.1.isAlpha).map Prod.fst
    match r.drop name.length with
    | (':', _) :: (']', _) :: rest => (namedClasses.lookup name).map fun ms => (ms, rest)
    | _ => none
  | _ => none

/-- The members of a class up to the bracket that closes it, and the text after that. `first` tells
that a bracket here would be a member. -/
def members? : Nat → Bool → Marked → Option (List Member × Marked)
  | 0, _, _ => none
  | _ + 1, _, [] => none
  | n + 1, first, (c, quoted) :: r =>
    if c = ']' && !quoted && !first then some ([], r)
    else
      match namedClass? ((c, quoted) :: r) with
      | some (ms, rest) => (members? n false rest).map fun m => (ms ++ m.1, m.2)
      | none =>
        match r with
        | ('-', false) :: (d, dQuoted) :: rest =>
          if d = ']' && !dQuoted then (members? n false r).map fun m => (.one c :: m.1, m.2)
          else (members? n false rest).map fun m => (.range c d :: m.1, m.2)
        | _ => (members? n false r).map fun m => (.one c :: m.1, m.2)

/-- Reads a pattern. A bracket that opens no class stands for itself. A class after `!` is negated, and
with `caret` so is one after `^`. -/
def glyphs (caret : Bool) : Nat → Marked → List Glyph
  | 0, _ => []
  | _ + 1, [] => []
  | n + 1, (c, quoted) :: r =>
    if quoted then .literal c :: glyphs caret n r
    else if c = '*' then .star :: glyphs caret n r
    else if c = '?' then .any :: glyphs caret n r
    else if c = '\\' then
      match r with
      | (d, _) :: rest => .literal d :: glyphs caret n rest
      | [] => [.literal c]
    else if c = '[' then
      let negated := match r.head? with
        | some (d, false) => d = '!' || caret && d = '^'
        | _ => false
      let inside := if negated then r.drop 1 else r
      match members? (inside.length + 1) true inside with
      | some (ms, rest) => .oneOf negated ms :: glyphs caret n rest
      | none => .literal c :: glyphs caret n r
    else .literal c :: glyphs caret n r

/-- Reads a pattern. -/
def row (caret : Bool) (t : Marked) : List Glyph :=
  glyphs caret (t.length + 1) t

/-- Reads a pattern as a session does. -/
def ofMarked (s : Session) (t : Marked) : List Glyph :=
  row (s.dialect = .extended) t

/-- The text without its shortest or longest end (or front) that a row of glyphs stands for. -/
def removeMatch (atEnd longest : Bool) (gs : List Glyph) (t : Raw) : Raw :=
  let (gs, t) := if atEnd then (gs, t) else (gs.reverse, t.reverse)
  let ends := Glyph.matchEnds gs t
  let sizes := List.range ends.length
  let found := (if longest then sizes else sizes.reverse).find? fun i => ends.getD i false
  match found with
  | none => if atEnd then t else t.reverse
  | some i => if atEnd then t.take i else (t.take i).reverse

/-- For each front of a text, whether a row of glyphs stands for it, the empty front first. -/
def matchFronts (gs : List Glyph) (t : Raw) : List Bool :=
  (Glyph.matchEnds gs.reverse t.reverse).reverse

/-- The length of the longest front of a text that a row of glyphs stands for. -/
def longestFront? (gs : List Glyph) (t : Raw) : Option Nat :=
  let fronts := matchFronts gs t
  (List.range fronts.length).reverse.find? fun i => fronts.getD i false

/-- Replaces the matches of a row of glyphs, from left to right, with a text. -/
def replace (all : Bool) (gs : List Glyph) (new : Raw) : Nat → Raw → Raw
  | 0, t => t
  | _ + 1, [] => []
  | n + 1, c :: r =>
    match longestFront? gs (c :: r) with
    | some (size + 1) =>
      let rest := r.drop size
      new ++ if all then replace all gs new n rest else rest
    | _ => c :: replace all gs new n r

/-- The text holds an unquoted character with a meaning. A bracket has one if another one may close
it. -/
def isPattern : Marked → Bool
  | [] => false
  | (c, quoted) :: r =>
    !quoted && (c = '*' || c = '?' || c = '[' && r.any fun d => d.1 = ']') || isPattern r

/-- Cuts marked characters at slashes. -/
def components (t : Marked) : List Marked :=
  t.foldr (fun c parts =>
    if c.1 = '/' then [] :: parts
    else match parts with
      | part :: rest => (c :: part) :: rest
      | [] => [[c]]) [[]]

/-- The text that a pattern stands for when it has no meaning of its own. -/
def plainText (t : Marked) : Raw :=
  t.map Prod.fst

/-- The names of a directory that a component of a pattern stands for, sorted. -/
def matchingNames (s : Session) (path : Raw) (component : Marked) : List Raw :=
  let dotted := match s.dialect with
    | .standard => [['.'], ['.', '.']]
    | .extended => []
  let names := match s.locate (if path = [] then ['.'] else path) with
    | .ok place => if s.tree.isDirectoryAt place then s.tree.namesAt place else []
    | .error _ => []
  let gs := ofMarked s component
  let shown := (dotted ++ names.map Raw.ofText).filter fun name =>
    (name.head? ≠ some '.' || s.has '.' || component.head?.any fun c => c.1 = '.') &&
      Glyph.matchAll gs name
  shown.mergeSort Raw.notAfter

/-- Something stands at a path, be it a link that leads nowhere. -/
def stands (s : Session) (path : Raw) : Bool :=
  match s.tree.locateFrom false s.directory (Raw.toText path) with
  | .ok place => (s.tree.entry? place).isSome
  | .error _ => false

/-- The paths that go on from given ones with the components of a pattern. -/
def extend (s : Session) : List Raw → List Marked → List Raw
  | paths, [] => paths
  | paths, component :: rest =>
    let next := paths.flatMap fun path =>
      if isPattern component then (matchingNames s path component).map (path ++ ·)
      else
        let longer := path ++ plainText component
        if rest = [] && !stands s longer then [] else [longer]
    extend s (if rest = [] then next else next.map (· ++ ['/'])) rest

/-- The paths that a pattern names, sorted. -/
def paths (s : Session) (t : Marked) : List Raw :=
  (extend s [[]] (components t)).mergeSort Raw.notAfter

end Pattern

end Shell

end Haybuild
