import Pkgset.Shell.Builtin.Control
import Pkgset.Shell.Builtin.Declare
import Pkgset.Shell.Builtin.Describe
import Pkgset.Shell.Builtin.Features
import Pkgset.Shell.Builtin.Folder
import Pkgset.Shell.Builtin.Jobs
import Pkgset.Shell.Builtin.Output
import Pkgset.Shell.Builtin.Variables

/-!
# The builtin commands

The builtin commands that run no other commands, by their names.
-/

namespace Pkgset.Shell.Builtin

/-- The builtin commands by their names. -/
def table : List (String × (List String → Run Nat)) := [
  (":", true_), ("[", bracket), ("alias", alias_), ("bg", resume), ("break", break_), ("caller", caller), ("cd", cd),
  ("chdir", cd), ("command", command_), ("continue", continue_), ("declare", declare), ("dirs", dirs),
  ("disown", disown), ("echo", echo), ("exit", exit_), ("export", export_), ("false", false_), ("fg", resume),
  ("getopts", getopts), ("hash", hash), ("jobs", jobs), ("kill", kill), ("let", let_), ("local", localOf),
  ("mapfile", mapfile), ("popd", popd), ("printf", printf), ("pushd", pushd), ("pwd", pwd), ("read", read),
  ("readarray", mapfile), ("readonly", readonly_), ("return", return_), ("set", set_), ("shift", shift),
  ("shopt", shopt), ("test", test), ("times", times), ("trap", trap), ("true", true_), ("type", type_),
  ("typeset", declare), ("ulimit", ulimit), ("umask", umask), ("unalias", unalias), ("unset", unset), ("wait", wait)]

end Pkgset.Shell.Builtin
