import Haybuild.FileTree
import Haybuild.NameMap
import Haybuild.Shell.Reader.Source

/-!
# Shell sessions

A `Session` is a running shell: its files, variables, functions, options and open files. What a
command does is an `Act`: it changes the session and either goes on or leaves the course of the
script by a `Jump`. Open files are shared: descriptors are numbers that lead to `Channel`s, so that
two descriptors, or a shell and a program it starts, read and write at the same place.
-/

namespace Haybuild

namespace Shell

/-- An open file. -/
inductive Channel where
  /-- Reads as empty, and forgets what is written. -/
  | null
  /-- Takes nothing that is written. -/
  | full
  /-- Reads as null characters, and forgets what is written. -/
  | zeros
  /-- The end of a pipe from which `rest` can still be read. -/
  | source (rest : Raw)
  /-- The end of a pipe to which `written` was written, last character first. There is `room` for so
  many characters more, if there is a limit, and `cut` tells that more were written. -/
  | sink (written : Raw) (room : Option Nat) (cut : Bool)
  /-- A file in the tree. Reading and writing go on at `offset`, or at the end with `appends`. -/
  | file (place : Location) (offset : Nat) (writes appends : Bool)
  | directory
  deriving Repr, DecidableEq

/-- What becomes of what is written to a channel. -/
inductive Writing where
  | done
  | refused
  /-- The other end of the pipe is gone. -/
  | cut
  deriving Repr, DecidableEq

/-- How a script leaves the course of its commands. -/
inductive Jump where
  /-- Leaves the shell. -/
  | exit
  /-- Leaves the shell after an error, unless the command in which it arose may go wrong. -/
  | abort
  /-- Leaves the function, or the file that is being carried out. -/
  | leave
  /-- Leaves so many loops, or goes on with the last of them. -/
  | loop (levels : Nat) (again : Bool)
  deriving Repr, DecidableEq

/-- The value of a variable. -/
inductive Value where
  | text (t : Raw)
  /-- The elements of an array by their subscripts, which ascend. -/
  | array (elements : List (Nat × Raw))
  /-- The entries of a table by their keys, in the order in which they are listed. -/
  | table (entries : List (Raw × Raw))
  deriving Repr, DecidableEq

/-- A variable. It may have attributes and no value. -/
structure Variable where
  value : Option Value := none
  /-- Programs find it in their environment. -/
  exported : Bool := false
  /-- It cannot be assigned any more. -/
  fixed : Bool := false
  deriving Repr, DecidableEq

/-- A process in the background. -/
structure Job where
  process : Nat
  status : Nat
  /-- The time at which it ends. -/
  ends : Nat

/-- What a process in the background writes at its time. -/
structure Later where
  time : Nat
  process : Nat
  handle : Nat
  text : Raw

/-- What is put back at the end of a function. -/
structure Frame where
  /-- The variables that the function hides. -/
  hidden : List (Raw × Option Variable) := []
  /-- The options as they were. -/
  options : Option (List Char) := none

/-- A running shell. -/
structure Session where
  tree : FileTree
  directory : Location
  vars : NameMap Variable
  functions : NameMap Script := .empty
  aliases : List (Raw × Raw) := []
  /-- The name of the shell, and the positional parameters. -/
  name : Raw
  parameters : List Raw := []
  status : Nat := 0
  /-- The letters of the options that are on. -/
  options : List Char := []
  /-- The status of what is being carried out is looked at. -/
  tested : Bool := false
  channels : Array Channel
  /-- The channel of each open descriptor. -/
  descriptors : List (Nat × Nat)
  /-- The scripts to carry out on signals, and at the end of the shell on `EXIT`. -/
  traps : NameMap Raw := .empty
  /-- The processes sent to the background that can be waited for, last first. -/
  jobs : List Job := []
  /-- The number of the process that was sent to the background last. -/
  lastBackground : Option Nat := none
  /-- The statuses of the stages of the last pipeline. -/
  stageStatuses : List Nat := []
  /-- The number of open descriptors that lead to the output of a script in a word. -/
  streams : Nat := 0
  /-- The session belongs to a shell that runs apart from another. -/
  isApart : Bool := false
  /-- The number of processes begun so far, and the number of this one. -/
  processes : Nat := 0
  process : Nat := 0
  /-- The time that has passed, in microseconds: nothing but waiting takes time. -/
  clock : Nat := 0
  /-- What processes in the background have not written yet. -/
  pending : List Later := []
  /-- In the background, what goes to the pipes before this number is written at its time. -/
  deferred : Nat := 0
  /-- For each function that is being carried out, what is put back at its end. -/
  frames : List Frame := []
  /-- How many files lie in one another whose content is carried out in this shell. -/
  sourced : Nat := 0
  loops : Nat := 0
  line : Nat := 1
  dialect : Dialect := .standard
  /-- The status of the last script whose output was put into a word. -/
  substituted : Nat := 0
  umask : Nat := 0o022
  /-- The status with which the shell ends, while it carries out the script of its end. -/
  ending : Option Nat := none
  /-- The argument with which `getopts` goes on, and the place inside it. -/
  optionIndex : Nat := 1
  optionOffset : Nat := 0

/-- What a command does. -/
abbrev Act := ExceptT Jump (StateM Session)

/-- Carries out scripts. -/
abbrev Runner := Script → Act Unit

namespace Channel

/-- Bytes with others written over them from an offset on. -/
def splice (content : Bytes) (offset : Nat) (bytes : Bytes) : Bytes :=
  if offset = content.length then content ++ bytes
  else
    content.take offset ++ List.replicate (offset - content.length) 0 ++ bytes ++
      content.drop (offset + bytes.length)

/-- The content of the file at a location. -/
def contentAt (tree : FileTree) (place : Location) : Bytes :=
  match tree.entry? place with
  | some (.file content _) => content
  | _ => []

/-- The characters that can be read where there is no end. -/
def endless : Raw :=
  List.replicate 65536 '\x00'

/-- What can still be read. -/
def unread? (tree : FileTree) : Channel → Option Raw
  | null => some []
  | full | zeros => some endless
  | source rest => some rest
  | file place offset _ _ => some (Raw.ofBytes ((contentAt tree place).drop offset))
  | sink .. | directory => none

end Channel

namespace Session

/-- The channel of a descriptor. -/
def channel? (s : Session) (descriptor : Nat) : Option Channel :=
  (s.descriptors.lookup descriptor).bind fun handle => s.channels[handle]?

/-- Opens a channel. -/
def openChannel (s : Session) (c : Channel) : Session × Nat :=
  ({ s with channels := s.channels.push c }, s.channels.size)

/-- Makes a descriptor lead to a channel. -/
def connect (s : Session) (descriptor handle : Nat) : Session :=
  { s with
    descriptors := (descriptor, handle) :: s.descriptors.filter fun d => d.1 ≠ descriptor }

/-- Closes a descriptor. -/
def disconnect (s : Session) (descriptor : Nat) : Session :=
  { s with descriptors := s.descriptors.filter fun d => d.1 ≠ descriptor }

/-- Forgets the channels from a number on, if no descriptor leads to them. -/
def forgetChannels (s : Session) (size : Nat) : Session :=
  if s.descriptors.all fun d => d.2 < size then { s with channels := s.channels.take size } else s

/-- The descriptor that leads to the output of the first script that a word reads. -/
def greatestStream : Nat := 63

/-- Writes to a channel at once. -/
def writeNow (s : Session) (handle : Nat) (t : Raw) : Session × Writing :=
  match s.channels[handle]? with
  | some .null | some .zeros => (s, .done)
  | some (.sink _ none _) =>
    ({ s with
       channels := s.channels.modify handle fun
         | .sink written room cut => .sink (t.reverse ++ written) room cut
         | c => c }, .done)
  | some (.sink _ (some room) _) =>
    let cut := room < t.length
    ({ s with
       channels := s.channels.modify handle fun
         | .sink written _ before =>
           .sink ((t.take room).reverse ++ written) (some (room - t.length)) (cut || before)
         | c => c }, if cut then .cut else .done)
  | some (.file place offset true appends) =>
    match s.tree.entry? place with
    | some (.file content _) =>
      let offset := if appends then content.length else offset
      ({ s with
         tree := s.tree.putContent place (Channel.splice content offset (Raw.toBytes t)),
         channels :=
           s.channels.setIfInBounds handle (.file place (offset + t.length) true appends) }, .done)
    | _ => (s, .done)
  | _ => (s, if t = [] then .done else .refused)

/-- Writes to a channel, or notes what is to be written. -/
def writeTo (s : Session) (handle : Nat) (t : Raw) : Session × Writing :=
  if handle < s.deferred then
    match s.channels[handle]? with
    | some (.sink ..) =>
      ({ s with pending := s.pending ++ [⟨s.clock, s.process, handle, t⟩] }, .done)
    | _ => s.writeNow handle t
  else s.writeNow handle t

/-- Writes what is pending and chosen, in the order of time. -/
def release (s : Session) (chosen : Later → Bool) : Session :=
  if s.pending.isEmpty then s
  else
    let (due, rest) := s.pending.partition fun l => s.deferred ≤ l.handle && chosen l
    (due.mergeSort fun a b => a.time ≤ b.time).foldl (fun s l => (s.writeNow l.handle l.text).1)
      { s with pending := rest }

/-- Goes on to a time, unless it has passed. -/
def advanceTo (s : Session) (time : Nat) : Session :=
  let clock := max time s.clock
  ({ s with clock }).release fun l => l.time ≤ clock

/-- Notes how much of a channel has not been read. -/
def leaveUnread (s : Session) (descriptor : Nat) (rest : Raw) : Session :=
  match s.descriptors.lookup descriptor with
  | none => s
  | some handle =>
    { s with
      channels := s.channels.modify handle fun
        | .source _ => .source rest
        | .file place _ writes appends =>
          .file place ((Channel.contentAt s.tree place).length - rest.length) writes appends
        | c => c }

/-- An option is on. -/
def has (s : Session) (letter : Char) : Bool :=
  s.options.contains letter

/-- The text of a variable: of an array, that of its first element. -/
def get? (s : Session) (name : Raw) : Option Raw :=
  match (s.vars.get? name).bind Variable.value with
  | some (.text t) => some t
  | some (.array elements) => elements.lookup 0
  | some (.table entries) => entries.lookup ['0']
  | none => none

/-- Gives a variable a value whatever its attributes are. -/
def put (s : Session) (name : Raw) (value : Value) : Session :=
  let v := (s.vars.get? name).getD {}
  let v := { v with value := some value, exported := v.exported || s.has 'a' }
  let s := { s with vars := s.vars.set name v }
  if name = "OPTIND" then
    let index := match value with
      | .text t => (Raw.nat? t).getD 1
      | .array _ | .table _ => 1
    { s with optionIndex := max 1 index, optionOffset := 0 }
  else s

/-- Puts back a variable as it was. -/
def restore (s : Session) (saved : Raw × Option Variable) : Session :=
  match saved.2 with
  | some v => { s with vars := s.vars.set saved.1 v }
  | none => { s with vars := s.vars.erase saved.1 }

/-- Puts back what a function has changed for its own time. -/
def leaveFrame (s : Session) (frame : Frame) : Session :=
  let s := frame.hidden.foldl restore s
  { s with options := frame.options.getD s.options }

/-- The environment of the programs that the shell starts. -/
def environment (s : Session) : List (Raw × Raw) :=
  s.vars.entries.filterMap fun e =>
    match e.2 with
    | ⟨some (.text t), true, _⟩ => some (e.1, t)
    | _ => none

/-- The working directory as a path. -/
def directoryPath (s : Session) : Raw :=
  Raw.ofText ('/' :: Text.join "/" s.directory)

/-- What the outer shell keeps of an inner one that ran apart. -/
def rejoin (outer inner : Session) : Session :=
  { outer with
    tree := inner.tree
    channels := inner.channels.take outer.channels.size
    status := inner.status % 256
    processes := inner.processes
    clock := inner.clock
    pending := inner.pending.filter fun l => l.handle < outer.channels.size }

/-- The place where a path lies. -/
def locate (s : Session) (path : Raw) : Except PathCause Location :=
  s.tree.locate s.directory (Raw.toText path)

/-- What a path names. -/
def find? (s : Session) (path : Raw) : Except PathCause FileTree.Entry :=
  s.tree.find? s.directory (Raw.toText path)

/-- The path of a command that is not part of the shell: the name itself if it has a slash, or else
the first place on the search path where something stands that can be started. -/
def commandPath? (s : Session) (name : Raw) : Option Raw :=
  let runs (path : Raw) : Bool :=
    match s.find? path with
    | .ok (.program _) | .ok (.file _ true) => true
    | _ => false
  if name.contains '/' then if runs name then some name else none
  else if name = [] then none
  else
    ((Text.cut ':' ((s.get? "PATH").getD [])).map fun d => Path.within d name).find? runs

end Session

namespace Act

/-- Ends a command with a status. -/
def finish (status : Nat) : Act Unit :=
  modify fun s => { s with status }

/-- The status of what is ended because nothing reads what it writes. -/
def unreadStatus : Nat := 141

/-- Writes to a descriptor. -/
def write (descriptor : Nat) (t : Raw) : Act Writing := do
  let s ← get
  match s.descriptors.lookup descriptor with
  | some handle =>
    let (s, w) := s.writeTo handle t
    set s
    return w
  | none => return if t = [] then .done else .refused

/-- Writes to a descriptor, and tells whether it could. A shell whose output nothing reads any more
ends. -/
def emit (descriptor : Nat) (t : Raw) : Act Bool := do
  match ← write descriptor t with
  | .done => return true
  | .refused => return false
  | .cut =>
    finish unreadStatus
    throw .exit

/-- The name of the shell and the line, as they stand before a complaint. -/
def complaintHead (s : Session) : Raw :=
  match s.dialect with
  | .standard => s.name ++ ": " ++ Text.ofNat s.line ++ ": "
  | .extended => s.name ++ ": line " ++ Text.ofNat s.line ++ ": "

/-- Writes a complaint as a line of errors. -/
def complain (message : Raw) : Act Unit := do
  discard <| emit 2 (complaintHead (← get) ++ message ++ "\n")

/-- Complains and ends the command with a status. -/
def fail (message : Raw) (status : Nat) : Act Unit := do
  complain message
  finish status

/-- Complains and leaves the shell. -/
def fatal {α : Type} (message : Raw) (status : Nat) : Act α := do
  complain message
  finish status
  throw .abort

/-- Does something and tells how it jumped, if it did. -/
def attempt (act : Act Unit) : Act (Option Jump) := do
  let s ← get
  match act.run s with
  | (.ok _, s) =>
    set s
    return none
  | (.error j, s) =>
    set s
    return some j

/-- Jumps on if there was a jump. -/
def resume (j : Option Jump) : Act Unit :=
  match j with
  | some j => throw j
  | none => pure ()

/-- Does something, and `after` it something more, however the first ended. -/
def ensuring (act : Act Unit) (after : Act Unit) : Act Unit := do
  let j ← attempt act
  after
  resume j

/-- Does something whose errors do not end the shell. -/
def guarded (act : Act Unit) : Act Unit := do
  let j ← attempt act
  unless j = some .abort do
    resume j

/-- Does something and closes the streams that were opened for it. -/
def closingStreams (act : Act Unit) : Act Unit := do
  let before := (← get).streams
  ensuring act do
    let s ← get
    if before < s.streams then
      let opened := (List.range s.streams).drop before
      let s := opened.foldl (fun s k => s.disconnect (Session.greatestStream - k)) s
      set { s with streams := before }

/-- Does something of which the status is looked at. -/
def observed (act : Act Unit) : Act Unit := do
  let before := (← get).tested
  modify fun s => { s with tested := true }
  ensuring act (modify fun s => { s with tested := before })

/-- Leaves the shell if the last command ended badly, nothing looks at its status and the options
ask for it. -/
def settle : Act Unit := do
  let s ← get
  if s.has 'e' && !s.tested && s.status ≠ 0 then throw .exit

/-- Refuses to change a variable that is fixed. -/
def demandFree (name : Raw) : Act Unit := do
  match (← get).vars.get? name with
  | some ⟨_, _, true⟩ =>
    match (← get).dialect with
    | .standard => fatal (name ++ ": is read only") 2
    | .extended => fatal (name ++ ": readonly variable") 1
  | _ => pure ()

/-- Gives a variable a text. -/
def assign (name value : Raw) : Act Unit := do
  demandFree name
  modify fun s => s.put name (.text value)

/-- Does something with variables that are put back afterwards. -/
def withVariables (names : List Raw) (act : Act Unit) : Act Unit := do
  let s ← get
  let saved := names.reverse.map fun n => (n, s.vars.get? n)
  ensuring act (modify fun s => saved.foldl Session.restore s)

end Act

end Shell

end Haybuild
