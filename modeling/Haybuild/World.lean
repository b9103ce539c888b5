import Haybuild.Host
import Haybuild.Shell.Run

/-!
# A world in memory

A `World` is a host that holds its files in memory and carries out commands itself. Apart from the
working directory it has what every system has: a root, a place for temporary files, the programs
of the shell and a sink.
-/

namespace Haybuild

/-- Files, a working directory and the variables of the surrounding process. -/
structure World where
  tree : FileTree
  directory : Location
  environment : Environment

namespace World

/-- The names of the programs of the system. -/
def programNames : List Text :=
  (Shell.Program.table.map Prod.fst ++ Shell.Launcher.table.map Prod.fst) ++
    (["sh", "dash", "bash"] : List Text)

/-- The programs of a system directory. -/
def programsIn (place : Location) : List (Location × FileTree.Entry) :=
  programNames.map fun n => (place ++ [n], .program n)

/-- The descriptors that have a device: those of scripts, and those of streams. -/
def deviceNumbers : List Nat :=
  List.range 10 ++ (List.range 8).map (Shell.Session.greatestStream - ·)

/-- The devices by name. -/
def devices : List (Location × FileTree.Entry) :=
  ([(["dev", "null"], .device .null), (["dev", "full"], .device .full),
    (["dev", "zero"], .device .zero), (["dev", "stdin"], .device (.standard 0)),
    (["dev", "stdout"], .device (.standard 1)), (["dev", "stderr"], .device (.standard 2)),
    (["dev", "fd"], .directory)] : List (Location × FileTree.Entry)) ++
    deviceNumbers.map fun n =>
      (["dev".toList, "fd".toList, Text.ofNat n], .device (.standard n))

/-- What every system has, apart from programs. -/
def fixtures : List (Location × FileTree.Entry) :=
  [(["bin"], .directory), (["dev"], .directory), (["etc"], .directory), (["root"], .directory),
    (["tmp"], .directory), (["tmp", "work"], .directory), (["usr"], .directory),
    (["usr", "bin"], .directory)]

/-- The tree without any files. -/
def bareTree : FileTree :=
  ⟨fixtures ++ devices ++ programsIn ["bin"] ++ programsIn ["usr", "bin"]⟩

/-- The world without any files. -/
def bare : World where
  tree := bareTree
  directory := ["tmp", "work"]
  environment := [("HOME", "/root"), ("PATH", "/usr/local/bin:/usr/bin:/bin")]

/-- Makes a directory and those it lies in. -/
def withDirectory (w : World) (path : Text) : World :=
  { w with tree := w.tree.makeDirectories (w.directory ++ Path.collapse [] (Path.components path)) }

/-- Puts a file at a path and makes the directories it lies in. -/
def withFile (w : World) (path : Text) (content : Bytes) : World :=
  let place := w.directory ++ Path.collapse [] (Path.components path)
  { w with tree := (w.tree.makeDirectories place.dropLast).put place (.file content false) }

/-- The files in the working directory and below, by their paths from there. -/
def filesBelow (w : World) : List (Text × Bytes) :=
  w.tree.filesBelow w.directory

/-- The path of the program that a name stands for when it is started with an environment. A name
without slash is looked for in the directories of the search path. -/
def program (w : World) (environment : Environment) (name : Text) : Except PathCause Text :=
  let programAt (path : Text) : Except PathCause Text :=
    match w.tree.find? w.directory path with
    | .error cause => .error cause
    | .ok (.program _) | .ok (.file _ true) => .ok path
    | .ok _ => .error .permissionDenied
  if name.contains '/' then programAt name
  else
    let places := Text.cut ':' ((environment.lookup ("PATH" : Text)).getD "/bin:/usr/bin")
    let tries := places.map fun d => programAt (Path.within d name)
    match tries.findSome? Except.toOption with
    | some p => .ok p
    | none =>
      if tries.any fun t => match t with | .error .permissionDenied => true | _ => false then
        .error .permissionDenied
      else .error .notFound

/-- The number of bytes that an argument or a variable of a program may not reach. -/
def argumentBound : Nat := 131072

/-- A session in which a program is started: its input is empty, and its output and errors are
kept. -/
def session (w : World) (environment : Environment) : Shell.Session where
  tree := w.tree
  directory := w.directory
  vars := NameMap.ofPairs (environment.map fun e =>
    (Shell.Raw.ofText e.1, ⟨some (.text (Shell.Raw.ofText e.2)), true, false⟩))
  name := []
  channels := #[.null, .sink [] none false, .sink [] none false]
  descriptors := [(0, 0), (1, 1), (2, 2)]

/-- What was written to a channel. -/
def written (s : Shell.Session) (handle : Nat) : Bytes :=
  match s.channels[handle]? with
  | some (.sink t _ _) => Shell.Raw.toBytes t.reverse
  | _ => []

/-- Runs a command with a shell program. -/
def run (shell : Text) (exports : Environment) (command : Text) (w : World) :
    Except PathCause Finished × World :=
  let environment :=
    (exports.foldl (fun m e => NameMap.set m e.1 e.2) (NameMap.ofPairs w.environment)).entries
  match w.program environment shell with
  | .error cause => (.error cause, w)
  | .ok path =>
    let texts := command :: environment.map fun e => e.1 ++ '=' :: e.2
    if texts.any fun t => FileTree.exceeds (argumentBound - 1) t then (.error .argumentsTooLong, w)
    else
      let start := Shell.Act.start (Shell.run Shell.depthBound) (Shell.Raw.ofText path)
        (Shell.Raw.ofText shell) [['-', 'c'], Shell.Raw.ofText command]
      let (_, s) := start.run (w.session environment)
      let s := s.release fun _ => true
      (.ok ⟨s.status % 256, written s 1, written s 2⟩, { w with tree := s.tree })

/-- The world as a host. -/
def host : Host World where
  directory := "/tmp/work"
  files w := w.tree.view w.directory
  read w path := w.tree.read w.directory path
  fileCount w := w.tree.fileCount
  run := run

end World

end Haybuild
