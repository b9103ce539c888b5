import Haybuild.Shell.Reader.Command
import Haybuild.Shell.Session

/-!
# Texts of scripts, and what runs apart

`Act.runText` carries out a text line by line, so that a line that is no script is found only when
it is reached. `Act.apart` does something in a shell of its own: only the files, what was written
and the status remain.
-/

namespace Haybuild

namespace Shell

namespace Act

/-- Carries out a source; the number bounds its lines. Nothing at all ends well. -/
def runLines (run : Runner) : Nat → Bool → Source → Act Unit
  | 0, _, _ => pure ()
  | n + 1, first, source => do
    match Script.readLine.run { source with aliases := (← get).aliases } with
    | .error refusal =>
      modify fun s => { s with line := refusal.line }
      fatal refusal.message 2
    | .ok (none, _) => if first then finish 0
    | .ok (some script, source) =>
      run script
      runLines run n false source

/-- Carries out a text. -/
def runText (run : Runner) (t : Raw) : Act Unit := do
  runLines run (t.length + 1) true ⟨t, 1, (← get).dialect, []⟩

/-- Carries out the script for the end of the shell, if there is one. The shell keeps its status
unless the script leaves with another. -/
def runEnd (run : Runner) : Act Unit := do
  let s ← get
  match s.traps.get? "EXIT" with
  | none => pure ()
  | some t =>
    set { s with traps := s.traps.erase "EXIT", ending := some s.status, tested := false }
    let j ← attempt (runText run t)
    unless j = some .exit do
      finish s.status

/-- Does something to the end of a shell, whatever way it ends. -/
def toEnd (run : Runner) (act : Act Unit) : Act Unit := do
  discard <| attempt act
  runEnd run

/-- Does something in a shell of its own. -/
def apart (run : Runner) (act : Act Unit) : Act Unit := do
  let outer ← get
  set { outer with
        traps := NameMap.ofPairs (outer.traps.entries.filter fun t => t.2 = [])
        jobs := []
        isApart := true
        ending := none }
  toEnd run act
  modify outer.rejoin

/-- What is written to a descriptor when something is done in a shell of its own. -/
def outputOf (run : Runner) (act : Act Unit) : Act Raw := do
  let outer ← get
  let (s, handle) := outer.openChannel (.sink [] none false)
  set s
  apart run do
    modify fun s =>
      { s.connect 1 handle with
        tested := false
        options := if s.dialect = .standard then s.options else s.options.filter (· ≠ 'e') }
    act
  let s := (← get).release fun l => l.handle = handle
  let written := match s.channels[handle]? with
    | some (.sink written ..) => written.reverse
    | _ => []
  set { s with
        channels := s.channels.take outer.channels.size
        substituted := s.status
        status := if s.dialect = Dialect.standard then outer.status else s.status }
  return written

end Act

end Shell

end Haybuild
