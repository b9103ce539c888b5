import Haybuild.Shell.Expand

/-!
# Redirections

A redirection makes a descriptor lead to a file, to another descriptor's channel, or nowhere.
`Act.redirected` does something with redirections that end with it.
-/

namespace Haybuild

namespace Shell

namespace Session

/-- The words for a path that cannot be opened. -/
def openingWords (s : Session) (path : Raw) (cause : PathCause) (creates : Bool) : Raw :=
  match s.dialect with
  | .extended => path ++ ": " ++ cause.words
  | .standard =>
    let missing := cause = .notFound || cause = .notDirectory
    let words : Raw :=
      if !missing then cause.words else if creates then "Directory nonexistent" else "No such file"
    (if creates then "cannot create " else "cannot open ") ++ path ++ ": " ++ words

/-- Opens a device. -/
def openDevice (s : Session) (d : FileTree.Device) : Option (Session × Nat) :=
  match d with
  | .null => some (s.openChannel .null)
  | .full => some (s.openChannel .full)
  | .zero => some (s.openChannel .zeros)
  | .standard n => (s.descriptors.lookup n).map fun handle => (s, handle)

/-- Opens a path for reading. -/
def openInput (s : Session) (path : Raw) : Except Raw (Session × Nat) :=
  match s.locate path with
  | .error cause => .error (s.openingWords path cause false)
  | .ok place =>
    match s.tree.entry? place with
    | none => .error (s.openingWords path .notFound false)
    | some .directory => .ok (s.openChannel .directory)
    | some (.file _ _) => .ok (s.openChannel (.file place 0 false false))
    | some (.program _) | some (.link _) => .ok (s.openChannel .null)
    | some (.device d) =>
      match s.openDevice d with
      | some opened => .ok opened
      | none => .error (s.openingWords path .notFound false)

/-- Opens a path for writing. A file that is there is emptied unless it is `kept`. -/
def openOutput (s : Session) (path : Raw) (kept appends : Bool) : Except Raw (Session × Nat) :=
  match s.locate path with
  | .error cause => .error (s.openingWords path cause true)
  | .ok place =>
    match s.tree.entry? place with
    | some .directory => .error (s.openingWords path .isDirectory true)
    | some (.program _) | some (.link _) =>
      .error (s.openingWords path .permissionDenied true)
    | some (.device d) =>
      match s.openDevice d with
      | some opened => .ok opened
      | none => .error (s.openingWords path .notFound true)
    | some (.file content _) =>
      let s := if kept then s else { s with tree := s.tree.putContent place [] }
      .ok (s.openChannel (.file place (if kept && appends then content.length else 0) true appends))
    | none =>
      if s.tree.isDirectoryAt place.dropLast then
        let s := { s with tree := s.tree.put place (.file [] false) }
        .ok (s.openChannel (.file place 0 true appends))
      else .error (s.openingWords path .notFound true)

/-- A file stands at a path. -/
def hasFile (s : Session) (path : Raw) : Bool :=
  match s.find? path with
  | .ok (.file _ _) => true
  | _ => false

/-- Makes a descriptor lead to what a function opens. -/
def connectOpened (descriptor : Nat) (opened : Except Raw (Session × Nat)) : Except Raw Session :=
  match opened with
  | .error why => .error why
  | .ok (opened, handle) => .ok (opened.connect descriptor handle)

/-- Carries out a redirection to a target; the text tells what is wrong. -/
def redirectTo (s : Session) (descriptor : Nat) (direction : Direction) (target : Raw) :
    Except Raw Session :=
  match direction with
  | .input => connectOpened descriptor (s.openInput target)
  | .output =>
    if s.has 'C' && s.hasFile target then
      match s.dialect with
      | .standard => .error ("cannot create " ++ target ++ ": File exists")
      | .extended => .error (target ++ ": cannot overwrite existing file")
    else connectOpened descriptor (s.openOutput target false false)
  | .overwrite => connectOpened descriptor (s.openOutput target false false)
  | .append => connectOpened descriptor (s.openOutput target true true)
  | .update => connectOpened descriptor (s.openOutput target true false)
  | .document => connectOpened descriptor (.ok (s.openChannel (.source target)))
  | .line => connectOpened descriptor (.ok (s.openChannel (.source (target ++ ['\n']))))
  | .both append =>
    match connectOpened 1 (s.openOutput target append append) with
    | .error why => .error why
    | .ok s =>
      match s.descriptors.lookup 1 with
      | some handle => .ok (s.connect 2 handle)
      | none => .ok s
  | .duplicate =>
    if target = "-" then .ok (s.disconnect descriptor)
    else
      match Raw.nat? target with
      | none =>
        match s.dialect with
        | .standard => .error "Syntax error: Bad fd number"
        | .extended => .error (target ++ ": ambiguous redirect")
      | some n =>
        match s.descriptors.lookup n with
        | some handle => .ok (s.connect descriptor handle)
        | none => .error (target ++ ": Bad file descriptor")

end Session

namespace Redirection

/-- The descriptors that a redirection changes. -/
def descriptors : Redirection → List Nat
  | .mk _ (.both _) _ => [1, 2]
  | .mk d _ _ => [d]

end Redirection

namespace Act

/-- The target of a redirection. -/
def target (run : Runner) : Redirection → Act (Nat × Direction × Raw)
  | .mk descriptor direction word => do
    match direction with
    | .document =>
      return (descriptor, direction, Fields.text (← get) (← Word.expandParts run Word.depth word))
    | .duplicate =>
      let t ← Word.text run word
      let standard := (← get).dialect = .standard
      if standard && t ≠ ['-'] && (t.length ≠ 1 || (Raw.nat? t).isNone) then
        fatal "Syntax error: Bad fd number" 2
      else return (descriptor, direction, t)
    | _ => return (descriptor, direction, ← Word.text run word)

/-- Carries out redirections from left to right, up to the first that fails. -/
def connectAll : List (Nat × Direction × Raw) → Act Bool
  | [] => return true
  | (descriptor, direction, target) :: rest => do
    match (← get).redirectTo descriptor direction target with
    | .ok s =>
      set s
      connectAll rest
    | .error why =>
      complain why
      return false

/-- Carries out redirections that stay, and tells whether all could be. -/
def redirect (run : Runner) (rs : List Redirection) : Act Bool := do
  connectAll (← rs.mapM (target run))

/-- Does something with redirections that end with it, or something else if they fail. -/
def redirected (run : Runner) (rs : List Redirection) (failed act : Act Unit) : Act Unit := do
  if rs.isEmpty then act
  else closingStreams do
    let before ← get
    let targets ← rs.mapM (target run)
    let size := (← get).channels.size
    let putBack : Act Unit := modify fun s =>
      let s := (rs.flatMap Redirection.descriptors).foldl (fun s d =>
        match before.descriptors.lookup d with
        | some handle => s.connect d handle
        | none => s.disconnect d) s
      s.forgetChannels size
    if ← connectAll targets then ensuring act putBack
    else
      putBack
      failed

end Act

end Shell

end Haybuild
