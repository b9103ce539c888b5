import Haybuild.Fault
import Haybuild.FilePattern

/-!
# File trees

A `FileTree` holds directories, files, programs, links and devices. A `Location` is a place in the
tree, given by the names on the way from its root. `FileTree.locate` walks a path component by
component: each one but the last must be a directory or a link to one, `.` stays and `..` goes up.
-/

namespace Haybuild

/-- The names on the way from the root of a tree. -/
abbrev Location := List Text

namespace FileTree

/-- A file that stands for something else than its content. -/
inductive Device where
  /-- Reads as empty, and forgets what is written. -/
  | null
  /-- Takes nothing that is written. -/
  | full
  /-- Reads as null characters. -/
  | zero
  /-- What a program has open under this number. -/
  | standard (descriptor : Nat)
  deriving Repr, DecidableEq

/-- What stands at a location. -/
inductive Entry where
  | directory
  /-- A file; `runs` tells that it may be started as a program. -/
  | file (content : Bytes) (runs : Bool)
  /-- A program that a shell can start by this name. -/
  | program (name : Text)
  /-- Another path in place of this one. -/
  | link (target : Text)
  | device (d : Device)
  deriving Repr, DecidableEq

end FileTree

/-- What stands at each location; the root is always a directory. -/
structure FileTree where
  entries : List (Location × FileTree.Entry)

namespace FileTree

/-- What stands at a location. -/
def entry? (t : FileTree) (place : Location) : Option Entry :=
  if place = [] then some .directory else t.entries.lookup place

/-- A directory stands at a location. -/
def isDirectoryAt (t : FileTree) (place : Location) : Bool :=
  t.entry? place == some .directory

/-- Replaces what stands at a location, or puts it there. -/
def setEntry (place : Location) (e : Entry) : List (Location × Entry) → List (Location × Entry)
  | [] => [(place, e)]
  | f :: r => if f.1 = place then (place, e) :: r else f :: setEntry place e r

/-- Puts an entry at a location. -/
def put (t : FileTree) (place : Location) (e : Entry) : FileTree :=
  ⟨setEntry place e t.entries⟩

/-- Puts content into the file at a location, or a new file there. -/
def putContent (t : FileTree) (place : Location) (content : Bytes) : FileTree :=
  match t.entry? place with
  | some (.file _ runs) => t.put place (.file content runs)
  | _ => t.put place (.file content false)

/-- Takes away a location and all that lies in it. -/
def erase (t : FileTree) (place : Location) : FileTree :=
  ⟨t.entries.filter fun f => !place.isPrefixOf f.1⟩

/-- Moves a location, with all that lies in it, to another one. -/
def relocate (t : FileTree) (place new : Location) : FileTree :=
  ⟨(t.erase new).entries.map fun f =>
    if place.isPrefixOf f.1 then (new ++ f.1.drop place.length, f.2) else f⟩

/-- Makes the directories on the way to a location, itself included, where nothing stands. -/
def makeDirectories (t : FileTree) (place : Location) : FileTree :=
  (List.range place.length).foldl (fun t i =>
    let part := place.take (i + 1)
    match t.entry? part with
    | none => t.put part .directory
    | some _ => t) t

/-- The names in a directory. -/
def namesAt (t : FileTree) (place : Location) : List Text :=
  t.entries.filterMap fun f => if f.1.dropLast = place then f.1.getLast? else none

/-- The steps of a path. A trailing slash asks for a directory, as `.` does. -/
def steps (path : Text) : List Text :=
  let parts := (Text.cut '/' path).filter (· ≠ [])
  if path.getLast? = some '/' then parts ++ [['.']] else parts

/-- A text has more bytes than a bound. -/
def exceeds (bound : Nat) (t : Text) : Bool :=
  bound < t.length || bound < 4 * t.length && bound < (Utf8.encode t).length

/-- The greatest number of bytes in a component of a path. -/
def componentBound : Nat := 255

/-- The greatest number of bytes in a path. -/
def pathBound : Nat := 4095

/-- The greatest number of links on the way of a path. -/
def linkBound : Nat := 40

/-- Goes the steps of a path. Links on the way are followed, and with `whole` one at its end too;
`links` is the number of links that may still be followed. -/
def walk (t : FileTree) (whole : Bool) (links : Nat) (place : Location) :
    List Text → Except PathCause Location
  | [] => .ok place
  | c :: r =>
    match t.entry? place with
    | none => .error .notFound
    | some .directory =>
      if c = ['.'] then walk t whole links place r
      else if c = ['.', '.'] then walk t whole links place.dropLast r
      else if exceeds componentBound c then .error .nameTooLong
      else
        match t.entry? (place ++ [c]), links with
        | some (.link _), 0 =>
          if whole || r ≠ [] then .error .tooManyLinks else .ok (place ++ [c])
        | some (.link target), more + 1 =>
          if whole || r ≠ [] then
            walk t whole more (if target.head? = some '/' then [] else place) (steps target ++ r)
          else .ok (place ++ [c])
        | _, links => walk t whole links (place ++ [c]) r
    | some _ => .error .notDirectory
termination_by steps => (links, steps.length)

/-- The location of a path that starts in a directory. Something stands there, or could be put
there. -/
def locateFrom (t : FileTree) (whole : Bool) (directory : Location) (path : Text) :
    Except PathCause Location :=
  if path = [] then .error .notFound
  else if exceeds pathBound path then .error .nameTooLong
  else t.walk whole linkBound (if path.head? = some '/' then [] else directory) (steps path)

/-- The location of a path, after the link at its end if there is one. -/
def locate (t : FileTree) (directory : Location) (path : Text) : Except PathCause Location :=
  t.locateFrom true directory path

/-- What a path names. -/
def find? (t : FileTree) (directory : Location) (path : Text) : Except PathCause Entry :=
  match t.locate directory path with
  | .error e => .error e
  | .ok place =>
    match t.entry? place with
    | none => .error .notFound
    | some e => .ok e

/-- The content of the file that a path names. -/
def read (t : FileTree) (directory : Location) (path : Text) : Except PathCause Bytes :=
  match t.find? directory path with
  | .error e => .error e
  | .ok .directory => .error .isDirectory
  | .ok (.file content _) => .ok content
  | .ok (.program _) | .ok (.device _) | .ok (.link _) => .ok []

/-- The tree as seen from a directory. -/
def view (t : FileTree) (directory : Location) : FileView where
  exists? path := (t.find? directory path).toBool
  present? path := match t.locateFrom false directory path with
    | .ok place => (t.entry? place).isSome
    | .error _ => false
  isDirectory path := match t.find? directory path with
    | .ok .directory => true
    | _ => false
  entries path := match t.locate directory path with
    | .ok place => if t.isDirectoryAt place then t.namesAt place else []
    | .error _ => []

/-- The files below a directory, by their paths from there. -/
def filesBelow (t : FileTree) (directory : Location) : List (Text × Bytes) :=
  t.entries.filterMap fun f =>
    if directory.isPrefixOf f.1 then
      let path := Text.join "/" (f.1.drop directory.length)
      match f.2 with
      | .file content _ => some (path, content)
      | .link _ =>
        match t.find? directory path with
        | .ok (.file content _) => some (path, content)
        | _ => none
      | _ => none
    else none

/-- The number of things in the tree that are no directories. -/
def fileCount (t : FileTree) : Nat :=
  t.entries.countP fun f => f.2 ≠ .directory

end FileTree

end Haybuild
