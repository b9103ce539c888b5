import Haybuild.Shell.Session

/-!
# Programs

A program is started with arguments, an environment and an input; it writes, may change files and
ends with a status. A `Task` is what it does, in a `Process`. Options are read by `Arguments.read`:
they may stand between operands, and short ones may be joined.
-/

namespace Haybuild

namespace Shell

/-- A running program. -/
structure Process where
  name : Raw
  environment : List (Raw × Raw)
  directory : Location
  tree : FileTree
  /-- Where the input comes from. -/
  channel : Option Channel
  /-- The channel to which the output goes. -/
  target : Option Channel
  /-- What can be read from the other open descriptors. -/
  readable : List (Nat × Raw) := []
  /-- What is left of the input once some of it was read. -/
  unread : Option Raw := none
  /-- What was written to each descriptor, last first. -/
  written : List (Nat × Raw) := []
  status : Nat := 0

/-- What a program does. It may end early. -/
abbrev Task := ExceptT Unit (StateM Process)

/-- A program, from its arguments. -/
abbrev Program := List Raw → Task Unit

namespace Task

/-- Writes to a descriptor. -/
def write (descriptor : Nat) (t : Raw) : Task Unit :=
  modify fun p => { p with written := (descriptor, t) :: p.written }

/-- Writes to the output. -/
def say (t : Raw) : Task Unit :=
  write 1 t

/-- Sets the status, unless a greater one is set. -/
def fault (status : Nat) : Task Unit :=
  modify fun p => { p with status := max status p.status }

/-- Writes a complaint as a line of errors. -/
def note (message : Raw) : Task Unit := do
  write 2 ((← get).name ++ ": " ++ message ++ "\n")

/-- Complains and goes on; the status will not be zero. -/
def complain (message : Raw) (status : Nat) : Task Unit := do
  note message
  fault status

/-- Complains and ends. -/
def fail {α : Type} (message : Raw) (status : Nat) : Task α := do
  complain message status
  throw ()

/-- Complains about arguments and ends. -/
def misuse {α : Type} (message : Raw) (status : Nat) : Task α := do
  let name := (← get).name
  note message
  write 2 ("Try '" ++ name ++ " --help' for more information.\n")
  fault status
  throw ()

/-- A text in quotes, as complaints show it. -/
def quote (t : Raw) : Raw :=
  "'" ++ t ++ "'"

/-- The location of a path. -/
def locate (path : Raw) : Task (Except PathCause Location) := do
  let p ← get
  return p.tree.locate p.directory (Raw.toText path)

/-- The location of a path whose last link is not followed. -/
def locateLink (path : Raw) : Task (Except PathCause Location) := do
  let p ← get
  return p.tree.locateFrom false p.directory (Raw.toText path)

/-- What a path names. -/
def find? (path : Raw) : Task (Except PathCause FileTree.Entry) := do
  let p ← get
  return p.tree.find? p.directory (Raw.toText path)

/-- What a path names, where it lies, when its last link is not followed. -/
def findLink? (path : Raw) : Task (Except PathCause (Location × FileTree.Entry)) := do
  match ← locateLink path with
  | .error cause => return .error cause
  | .ok place =>
    match (← get).tree.entry? place with
    | none => return .error .notFound
    | some e => return .ok (place, e)

/-- A path names a directory. -/
def isDirectory (path : Raw) : Task Bool := do
  match ← find? path with
  | .ok .directory => return true
  | _ => return false

/-- Something stands at a path. -/
def exists_ (path : Raw) : Task Bool := do
  return (← find? path).toBool

/-- Changes the files. -/
def changeTree (f : FileTree → FileTree) : Task Unit :=
  modify fun p => { p with tree := f p.tree }

/-- All that is left of the input. -/
def peekInput : Task (Except PathCause Raw) := do
  let p ← get
  match p.unread, p.channel with
  | some t, _ => return .ok t
  | none, some .directory => return .error .isDirectory
  | none, none => return .error .badDescriptor
  | none, some c => return .ok ((c.unread? p.tree).getD [])

/-- Reads all that is left of the input. -/
def readInput : Task (Except PathCause Raw) := do
  let t ← peekInput
  if t.toBool then
    modify fun p => { p with unread := some [] }
  return t

/-- The content of a file, or the input for `-`. -/
def readPath (path : Raw) : Task (Except PathCause Raw) := do
  if path = "-" then readInput
  else
    match ← find? path with
    | .error cause => return .error cause
    | .ok .directory => return .error .isDirectory
    | .ok (.file content _) => return .ok (Raw.ofBytes content)
    | .ok (.device (.standard 0)) => readInput
    | .ok (.device (.standard n)) => return .ok (((← get).readable.lookup n).getD [])
    | .ok (.device .zero) | .ok (.device .full) => return .ok Channel.endless
    | .ok _ => return .ok []

/-- Puts content at a path: in place of what is there, or behind it. -/
def writePath (path content : Raw) (appends : Bool) : Task (Except PathCause Unit) := do
  match ← locate path with
  | .error cause => return .error cause
  | .ok place =>
    let tree := (← get).tree
    match tree.entry? place with
    | some .directory => return .error .isDirectory
    | some (.device (.standard n)) =>
      write n content
      return .ok ()
    | some (.device _) => return .ok ()
    | some (.file old _) =>
      let bytes := Raw.toBytes content
      changeTree fun t => t.putContent place (if appends then old ++ bytes else bytes)
      return .ok ()
    | some _ => return .error .permissionDenied
    | none =>
      if tree.isDirectoryAt place.dropLast then
        changeTree fun t => t.put place (.file (Raw.toBytes content) false)
        return .ok ()
      else return .error .notFound

/-- Gives the contents of paths, one after the other, to a function. A path that cannot be read is
complained about. Without paths the input is read. -/
def forEachContent (paths : List Raw) (f : Raw → Raw → Task Unit) : Task Unit := do
  for path in if paths.isEmpty then ["-".toList] else paths do
    match ← readPath path with
    | .ok t => f path t
    | .error cause => complain (path ++ ": " ++ cause.words) 1

/-- The contents of paths one after the other. -/
def readAll (paths : List Raw) : Task Raw := do
  let mut whole : List Raw := []
  for path in if paths.isEmpty then ["-".toList] else paths do
    match ← readPath path with
    | .ok t => whole := t :: whole
    | .error cause => complain (path ++ ": " ++ cause.words) 1
  return whole.reverse.flatten

end Task

/-- The options of a program, with the values they take, and the operands. -/
structure Arguments where
  options : List (Char × Raw) := []
  operands : List Raw := []

namespace Arguments

/-- An option is given. -/
def has (a : Arguments) (c : Char) : Bool :=
  a.options.any fun o => o.1 = c

/-- The value of an option; of several, the last. -/
def value? (a : Arguments) (c : Char) : Option Raw :=
  a.options.reverse.lookup c

/-- The values of an option, in order. -/
def values (a : Arguments) (c : Char) : List Raw :=
  (a.options.filter fun o => o.1 = c).map Prod.snd

/-- What options a program knows: letters without and with values, and names for them. With
`firstOnly`, an operand ends them. -/
structure Known where
  flags : Raw
  valued : Raw := []
  names : List (Raw × Char) := []
  firstOnly : Bool := false
  /-- The status after an option that is not known. -/
  status : Nat := 1

/-- The letter of a name, which may be cut short. -/
def letter? (k : Known) (name : Raw) : Option Char :=
  match k.names.lookup name with
  | some c => some c
  | none => (k.names.find? fun n => name.isPrefixOf n.1).map Prod.snd

/-- Reads arguments; the number bounds how many steps that takes. -/
def readFrom (k : Known) : Nat → Arguments → List Raw → Task Arguments
  | 0, a, _ => return a
  | _ + 1, a, [] => return a
  | n + 1, a, t :: rest => do
    match t with
    | ['-', '-'] => return { a with operands := a.operands ++ rest }
    | '-' :: '-' :: long =>
      let (name, value) := match Text.splitAt? '=' long with
        | some (name, value) => (name, some value)
        | none => (long, none)
      match letter? k name with
      | none => Task.misuse ("unrecognized option " ++ Task.quote t) k.status
      | some c =>
        if k.valued.contains c then
          match value, rest with
          | some v, _ => readFrom k n { a with options := a.options ++ [(c, v)] } rest
          | none, v :: rest => readFrom k n { a with options := a.options ++ [(c, v)] } rest
          | none, [] =>
            Task.misuse ("option " ++ Task.quote t ++ " requires an argument") k.status
        else
          readFrom k n { a with options := a.options ++ [(c, value.getD [])] } rest
    | '-' :: c :: cs =>
      if k.valued.contains c then
        match cs, rest with
        | _ :: _, _ => readFrom k n { a with options := a.options ++ [(c, cs)] } rest
        | [], v :: rest => readFrom k n { a with options := a.options ++ [(c, v)] } rest
        | [], [] =>
          Task.misuse ("option requires an argument -- " ++ Task.quote [c]) k.status
      else if k.flags.contains c then
        readFrom k n { a with options := a.options ++ [(c, [])] }
          (if cs = [] then rest else ('-' :: cs) :: rest)
      else Task.misuse ("invalid option -- " ++ Task.quote [c]) k.status
    | _ =>
      if k.firstOnly then return { a with operands := a.operands ++ t :: rest }
      else readFrom k n { a with operands := a.operands ++ [t] } rest

/-- Reads arguments. -/
def read (k : Known) (arguments : List Raw) : Task Arguments :=
  readFrom k (arguments.flatten.length + arguments.length + 1) {} arguments

end Arguments

end Shell

end Haybuild
