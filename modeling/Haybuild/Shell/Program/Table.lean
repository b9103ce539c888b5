import Haybuild.Shell.Program.Dump
import Haybuild.Shell.Program.Edit
import Haybuild.Shell.Program.Files
import Haybuild.Shell.Program.Lines
import Haybuild.Shell.Program.Search
import Haybuild.Shell.Program.Sort
import Haybuild.Shell.Program.Values

/-!
# The programs by name
-/

namespace Haybuild

namespace Shell

namespace Program

/-- The programs that work on lines. -/
def onLines : List (Raw × Program) :=
  [("cat", cat), ("tac", tac), ("rev", rev), ("tee", tee), ("head", head), ("tail", tail),
    ("wc", wc), ("uniq", uniq), ("cut", cut), ("paste", paste), ("nl", nl), ("fold", fold),
    ("expand", expand), ("comm", comm), ("tr", tr), ("sort", sort), ("sed", sed),
    ("grep", grep false false), ("egrep", grep false true), ("fgrep", grep true false)]

/-- The programs that work on files. -/
def onFiles : List (Raw × Program) :=
  [("mkdir", mkdir), ("rmdir", rmdir), ("rm", rm), ("unlink", unlink), ("touch", touch),
    ("truncate", truncate), ("mktemp", mktemp), ("ln", ln), ("chmod", chmod), ("chown", ends_ 0),
    ("chgrp", ends_ 0), ("readlink", readlink), ("realpath", realpath), ("cp", cp), ("mv", mv),
    ("install", install), ("ls", ls), ("stat", stat), ("cmp", cmp), ("diff", diff), ("od", od),
    ("base64", base64)]

/-- The programs that work on values. -/
def onValues : List (Raw × Program) :=
  [("basename", basename), ("dirname", dirname), ("seq", seq), ("expr", expr), ("true", ends_ 0),
    ("false", ends_ 1), ("pwd", pwd), ("printenv", printenv), ("yes", yes),
    ("uname", uname), ("id", id_), ("whoami", tells "root"), ("logname", tells "root"),
    ("hostname", tells "localhost"), ("nproc", tells "1"), ("arch", tells "x86_64"),
    ("date", date), ("sync", ends_ 0)]

/-- The programs by name. -/
def table : List (Raw × Program) :=
  onLines ++ onFiles ++ onValues

end Program

end Shell

end Haybuild
