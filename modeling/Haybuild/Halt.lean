import Haybuild.Error
import Haybuild.Fault

/-!
# What stops a build

Loading and running end early with an error that the program reports in its own words, or with a
fault from outside.
-/

namespace Haybuild

/-- What stops the program: an error of the build, or a fault. -/
inductive Halt where
  | error (e : BuildError)
  | fault (f : Fault)
  deriving Repr, DecidableEq

end Haybuild
