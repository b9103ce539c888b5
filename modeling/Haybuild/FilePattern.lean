import Haybuild.Path

/-!
# File patterns

In a file pattern `*` stands for any characters, `?` for one, and `[…]` for one of a class; none of
them matches a slash, and a component matches a name that starts with a dot only if it starts with
one itself. `Glyph.row` reads one component, `Glyph.matchAll` decides whether a name matches, and
`FilePattern.expand` finds the paths that a pattern names.
-/

namespace Haybuild

/-- What can be seen of the files at one moment. Paths are relative to the working directory unless
they start with a slash. -/
structure FileView where
  exists? : Text → Bool
  /-- Something has the path, be it a link that leads nowhere. -/
  present? : Text → Bool
  isDirectory : Text → Bool
  /-- The names in a directory; none for a path that is no directory. -/
  entries : Text → List Text

namespace FilePattern

/-- A member of a character class. -/
inductive Member where
  | one (c : Char)
  | range (first last : Char)
  deriving Repr, DecidableEq

/-- The member holds a character. -/
def Member.holds (c : Char) : Member → Bool
  | one d => d = c
  | range first last => first ≤ c && c ≤ last

/-- An element of a pattern component. -/
inductive Glyph where
  | literal (c : Char)
  | any
  | star
  | oneOf (negated : Bool) (members : List Member)
  deriving Repr, DecidableEq

namespace Glyph

/-- Reads the chunks between the hyphens that make ranges. A hyphen makes a range when a character
of its chunk precedes it, and at least two follow the hyphen before it. -/
def chunksFrom (skip : Nat) : Text → Text × List Text
  | [] => ([], [])
  | c :: r =>
    if c = '-' && skip = 0 then
      let (chunk, rest) := chunksFrom 2 r
      ([], chunk :: rest)
    else
      let (chunk, rest) := chunksFrom (skip - 1) r
      (c :: chunk, rest)

/-- The chunks of the inside of a class, of which a last empty one stands for a hyphen. -/
def chunks (inside : Text) : List Text :=
  let (first, rest) := chunksFrom (if inside.head? = some '!' then 2 else 1) inside
  match (first :: rest).reverse with
  | [] :: before :: others => ((before ++ ['-']) :: others).reverse
  | _ => first :: rest

/-- Joins neighbouring chunks whose range would be empty, from the last pair to the first. -/
def dropEmptyRanges : List Text → List Text
  | [] => []
  | chunk :: r =>
    match dropEmptyRanges r with
    | [] => [chunk]
    | next :: rest =>
      match chunk.getLast?, next.head? with
      | some a, some b =>
        if b < a then (chunk.dropLast ++ next.drop 1) :: rest else chunk :: next :: rest
      | _, _ => chunk :: next :: rest

/-- The characters of chunks, with `none` for the hyphens between them. -/
def withRanges : List Text → List (Option Char)
  | [] => []
  | [chunk] => chunk.map some
  | chunk :: r => chunk.map some ++ none :: withRanges r

/-- The members written by a row of characters and range hyphens. -/
def members : List (Option Char) → List Member
  | [] => []
  | some a :: none :: some b :: r => .range a b :: members r
  | some a :: r => .one a :: members r
  | none :: r => .one '-' :: members r

/-- The class written by the inside of its brackets. -/
def ofInside (inside : Text) : Glyph :=
  match withRanges (dropEmptyRanges (chunks inside)) with
  | some '!' :: r => .oneOf true (members r)
  | r => .oneOf false (members r)

/-- The inside of a class that opens before the text, and the text after its closing bracket. A
bracket right at the start, or right after a `!` there, does not close the class. -/
def closeClass? (t : Text) : Option (Text × Text) :=
  let free := match t with
    | '!' :: ']' :: _ => 2
    | '!' :: _ | ']' :: _ => 1
    | _ => 0
  (Text.splitAt? ']' (t.drop free)).map fun s => (t.take free ++ s.1, s.2)

theorem length_snd_of_closeClass? {t : Text} {s : Text × Text} (h : closeClass? t = some s) :
    s.2.length < t.length := by
  have key : ∀ (c : Char) (u : Text) (v : Text × Text), Text.splitAt? c u = some v →
      v.2.length < u.length := by
    intro c u
    induction u with
    | nil => simp [Text.splitAt?]
    | cons d r ih =>
      intro v h
      simp only [Text.splitAt?] at h
      split at h
      · cases h; simp
      · obtain ⟨w, hw, rfl⟩ := Option.map_eq_some_iff.1 h
        have := ih w hw
        simp only [List.length_cons]
        omega
  simp only [closeClass?] at h
  obtain ⟨u, hu, rfl⟩ := Option.map_eq_some_iff.1 h
  have := key _ _ _ hu
  simp only [List.length_drop] at this
  simp only
  omega

/-- Reads a component of a pattern. A bracket that opens no class stands for itself. -/
def row : Text → List Glyph
  | [] => []
  | c :: r =>
    if c = '*' then .star :: row r
    else if c = '?' then .any :: row r
    else if c = '[' then
      match h : closeClass? r with
      | some (inside, rest) =>
        have := length_snd_of_closeClass? h
        ofInside inside :: row rest
      | none => .literal c :: row r
    else .literal c :: row r
termination_by t => t.length
decreasing_by all_goals (simp only [List.length_cons] at *; omega)

/-- The glyph stands for a character. -/
def holds (c : Char) : Glyph → Bool
  | literal d => d = c
  | any | star => true
  | oneOf negated members => members.any (Member.holds c) != negated

/-- For each place of a row, whether it holds there or at a later place. -/
def anyLater : List Bool → List Bool
  | [] => []
  | b :: r =>
    let later := anyLater r
    (b || later.headD false) :: later

/-- For each end of a text, from the whole of it down to the empty one, whether a row of glyphs
stands for it. -/
def matchEnds : List Glyph → Text → List Bool
  | [], t => t.map (fun _ => false) ++ [true]
  | .star :: gs, t => anyLater (matchEnds gs t)
  | g :: gs, t => List.zipWith (fun c rest => g.holds c && rest) t (matchEnds gs t).tail ++ [false]

/-- A row of glyphs stands for a whole text. -/
def matchAll (gs : List Glyph) (t : Text) : Bool :=
  (matchEnds gs t).headD false

end Glyph

/-- A text that holds a character with a meaning of its own. -/
def isPattern (t : Text) : Bool :=
  t.any fun c => c = '*' || c = '?' || c = '['

/-- The names of a directory that match a component. -/
def matchingNames (files : FileView) (directory component : Text) (onlyDirectories : Bool) :
    List Text :=
  let place := if directory = [] then ['.'] else directory
  (files.entries place).filter fun name =>
    (!onlyDirectories || files.isDirectory (Path.within place name)) &&
      (component.head? = some '.' || name.head? ≠ some '.') &&
      Glyph.matchAll (Glyph.row component) name

/-- The last component, if it names something in a directory. -/
def plainName (files : FileView) (directory component : Text) : List Text :=
  if component = [] then if files.isDirectory directory then [[]] else []
  else if files.present? (Path.within directory component) then [component] else []

/-- The paths that a pattern names, for patterns of at most so many components. -/
def expandWithin (files : FileView) : Nat → Bool → Text → List Text
  | 0, _, _ => []
  | depth + 1, onlyDirectories, pattern =>
    let (directory, component) := Path.split pattern
    if !isPattern pattern then
      if component = [] then if files.isDirectory directory then [pattern] else []
      else if files.present? pattern then [pattern] else []
    else if directory = [] then matchingNames files [] component onlyDirectories
    else
      let directories :=
        if isPattern directory then expandWithin files depth true directory else [directory]
      directories.flatMap fun d =>
        let names :=
          if isPattern component then matchingNames files d component onlyDirectories
          else plainName files d component
        names.map (Path.within d)

/-- The directory that a pattern is looked for in first has a name with the null character, so that
it cannot be listed. -/
def listsNull (pattern : Text) : Bool :=
  isPattern pattern && (Path.split (pattern.takeWhile fun c => !isPattern [c])).1.contains '\x00'

/-- The paths that a pattern names. A pattern that ends with a slash names directories only. -/
def expand (files : FileView) (pattern : Text) : List Text :=
  expandWithin files (pattern.length + 1) false pattern

end FilePattern

end Haybuild
