import Haybuild.Text.Literal
import Haybuild.Text.Utf8

/-!
# Faults

A fault is what stops the program from outside its own language: a path that cannot be opened, bytes
that are no text, a call that makes no sense. Errors in a build file are not faults; they are told
in diagnostics.
-/

namespace Haybuild

/-- Why a path cannot be opened or run. -/
inductive PathCause where
  | notFound
  | argumentsTooLong
  | badDescriptor
  | permissionDenied
  | notDirectory
  | isDirectory
  | nameTooLong
  | tooManyLinks
  deriving Repr, DecidableEq

namespace PathCause

/-- The number by which the system knows a cause. -/
def number : PathCause → Nat
  | notFound => 2
  | argumentsTooLong => 7
  | badDescriptor => 9
  | permissionDenied => 13
  | notDirectory => 20
  | isDirectory => 21
  | nameTooLong => 36
  | tooManyLinks => 40

/-- The system's words for a cause. -/
def words : PathCause → Text
  | notFound => "No such file or directory"
  | argumentsTooLong => "Argument list too long"
  | badDescriptor => "Bad file descriptor"
  | permissionDenied => "Permission denied"
  | notDirectory => "Not a directory"
  | isDirectory => "Is a directory"
  | nameTooLong => "File name too long"
  | tooManyLinks => "Too many levels of symbolic links"

end PathCause

/-- A fault from outside the build file. -/
inductive Fault where
  /-- A path that cannot be opened or run. -/
  | path (cause : PathCause) (path : Text)
  /-- Bytes that are not UTF-8. -/
  | decoding (fault : Utf8.Fault)
  /-- A node that a graph does not hold. -/
  | unknownNode (node : Int)
  /-- A run without workers. -/
  | noWorkers
  /-- A path, a command or a variable with the null character in it. -/
  | embeddedNull
  /-- A variable whose name holds `=`. -/
  | environmentName
  /-- Includes nested deeper than the files that were there. -/
  | includeDepth
  deriving Repr, DecidableEq

namespace Fault

/-- The words for flawed bytes. -/
def flawWords : Utf8.Flaw → Text
  | .startByte => "invalid start byte"
  | .continuationByte => "invalid continuation byte"
  | .endOfData => "unexpected end of data"

/-- A fault in words. -/
def message : Fault → Text
  | path cause p =>
    "[Errno " ++ Text.ofNat cause.number ++ "] " ++ cause.words ++ ": " ++ Text.literal p
  | decoding f =>
    if f.length = 1 then
      "'utf-8' codec can't decode byte 0x" ++ Text.hex 2 f.byte.toNat ++ " in position " ++
        Text.ofNat f.offset ++ ": " ++ flawWords f.flaw
    else
      "'utf-8' codec can't decode bytes in position " ++ Text.ofNat f.offset ++ "-" ++
        Text.ofNat (f.offset + f.length - 1) ++ ": " ++ flawWords f.flaw
  | unknownNode n => Text.ofInt n
  | noWorkers => "max_workers must be greater than 0"
  | embeddedNull => "embedded null byte"
  | environmentName => "illegal environment variable name"
  | includeDepth => "includes are nested too deep"

end Fault

end Haybuild
