import Haybuild.CommandLine
import Haybuild.Console
import Haybuild.World

/-!
# The program

The working directory is taken into a world in memory, the command line runs there, and what changed
is written back. This module only moves files and texts in and out.
-/

namespace Haybuild

namespace Program

/-- The names of the environment variables that hold settings. -/
def settingNames : List String :=
  ["HAYMAKER_WORKERS", "HAYMAKER_KEEP_GOING", "HAYMAKER_SHELL"]

/-- The variables of the environment that hold settings. -/
def readEnvironment : IO Environment := do
  let mut found : Environment := []
  for name in settingNames do
    if let some value ← IO.getEnv name then
      found := found ++ [((name : Text), (value : Text))]
  return found

/-- The path of a name in a directory, which is empty for the working directory. -/
def below (directory name : String) : String :=
  if directory.isEmpty then name else directory ++ "/" ++ name

/-- Takes the names of a directory into a world. -/
partial def takeIn (w : World) (directory : String) (names : List String) : IO World := do
  let mut w := w
  for name in names do
    let path := below directory name
    let entries ← (do
      let place ← IO.FS.realPath path
      if ← place.isDir then
        let entries ← place.readDir
        pure (some (entries.toList.map fun e => e.fileName))
      else pure none)
    match entries with
    | some names => w ← takeIn (w.withDirectory path) path names
    | none =>
      let bytes ← IO.FS.readBinFile path
      w := w.withFile path bytes.toList
  return w

/-- Takes the working directory into a world. -/
def takeInAll : IO World := do
  let entries ← (← IO.currentDir).readDir
  takeIn World.bare "" (entries.toList.map fun e => e.fileName)

/-- The directory a path lies in, or the working directory. -/
def directoryOf (path : Text) : String :=
  match (Path.split path).1 with
  | [] => "."
  | directory => String.ofList directory

/-- Writes the files of a world that differ from those of an earlier one, and removes those it
lacks. -/
def writeBack (before after : World) : IO Unit := do
  let old := before.filesBelow
  let new := after.filesBelow
  for (path, content) in new do
    if old.lookup path ≠ some content then
      IO.FS.createDirAll (directoryOf path)
      IO.FS.writeBinFile (String.ofList path) ⟨content.toArray⟩
  for (path, _) in old do
    if (new.lookup path).isNone then
      IO.FS.removeFile (String.ofList path)

/-- The words for the fault that escaped a run. -/
def raisedText (raised : Option Fault) : Text :=
  match raised with
  | some fault => fault.message ++ ['\n']
  | none => []

/-- Runs the command line with its arguments and gives the exit code. -/
def run (arguments : List String) : IO UInt32 := do
  let settings := Settings.read (← readEnvironment) none
  let before ← takeInAll
  let f := CommandLine.run World.host settings (arguments.map String.toList) before
  let written := Console.writeAll ⟨f.debug, false⟩ f.events
  writeBack before f.host
  for warning in settings.warnings do
    IO.eprintln (String.ofList warning)
  IO.print (String.ofList written.output)
  IO.eprint (String.ofList (written.errors ++ raisedText f.raised))
  return f.code.toUInt32

end Program

end Haybuild

/-- The entry of the program. -/
def main (arguments : List String) : IO UInt32 :=
  Haybuild.Program.run arguments
