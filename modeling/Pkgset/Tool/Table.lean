import Pkgset.Shell.Launch
import Pkgset.Tool.Archive
import Pkgset.Tool.Columns
import Pkgset.Tool.Compare
import Pkgset.Tool.Copy
import Pkgset.Tool.Digest
import Pkgset.Tool.Edit.Run
import Pkgset.Tool.Find.Walk
import Pkgset.Tool.Lines
import Pkgset.Tool.Listing
import Pkgset.Tool.Numbers
import Pkgset.Tool.Order
import Pkgset.Tool.Paths
import Pkgset.Tool.Search
import Pkgset.Tool.Start
import Pkgset.Tool.Supply
import Pkgset.Tool.System
import Pkgset.Tool.Words

/-!
# The programs of the system
-/

namespace Pkgset.Tool
open Kernel

/-- The shells, by their names. -/
def shells : List (String × Shell.Dialect) := [("bash", .rich), ("dash", .plain), ("sh", .plain)]

/-- The other programs, by their names. -/
def works : List (String × (List String → Work Nat)) := [
  ("[", bracket), ("arch", arch), ("base32", base32), ("base64", base64), ("basename", basename), ("cat", cat),
  ("chgrp", chown), ("chmod", chmod), ("chown", chown), ("cksum", cksum), ("cmp", cmp), ("comm", comm), ("cp", cp),
  ("cut", cut), ("date", date), ("diff", diff), ("dir", dir), ("dirname", dirname), ("echo", echo), ("env", env),
  ("expand", expand), ("expr", expr), ("factor", factor), ("false", failAlways), ("find", find), ("fold", fold),
  ("grep", grep), ("head", head), ("hostname", hostname), ("id", id), ("install", install), ("join", join),
  ("link", link), ("ln", ln), ("ls", ls), ("md5sum", md5sum), ("mkdir", mkdir), ("mkfifo", mkfifo),
  ("mktemp", mktemp), ("mv", mv), ("nice", nice), ("nl", nl), ("nohup", nohup), ("nproc", nproc), ("paste", paste),
  ("printenv", printenv), ("printf", printf), ("pwd", pwd), ("readlink", readlink), ("realpath", realpath),
  ("rev", rev), ("rm", rm), ("rmdir", rmdir), ("sed", sed), ("seq", seq), ("sha1sum", sha1sum),
  ("sha224sum", sha224sum), ("sha256sum", sha256sum), ("sha384sum", sha384sum), ("sha512sum", sha512sum),
  ("sleep", sleep), ("sort", sort), ("stat", stat), ("sum", sum), ("tac", tac), ("tail", tail), ("tar", tar),
  ("tee", tee), ("test", test), ("timeout", timeout), ("touch", touch), ("tr", tr), ("true", succeed),
  ("truncate", truncate), ("tty", tty), ("uname", uname), ("unexpand", unexpand), ("uniq", uniq), ("unlink", unlink),
  ("vdir", vdir), ("wc", wc), ("whoami", whoami), ("xargs", xargs), ("yes", yes)]

/-- How deep programs may start each other. -/
def depthLimit : Nat := 100000

/-- The programs of the system, within a depth. -/
def programsWithin : Nat → Programs
  | 0 => fun _ _ => Act.finish (.killed 9)
  | depth + 1 => fun name image =>
    match shells.lookup name, works.lookup name with
    | some dialect, _ => Shell.Launch.shell (programsWithin depth) dialect image
    | _, some work => Work.run work (programsWithin depth) image
    | none, none => return 127

/-- The programs of the system. -/
def programs : Programs := programsWithin depthLimit

/-- The programs that are texts, by their names. -/
def scripts : List (String × String) := [("E", "egrep"), ("F", "fgrep")].map fun (letter, name) =>
  (name, "#!/bin/sh\ncmd=$\x7b0##*/\x7d\nexec grep -" ++ letter ++ " \"$@\"\n")

/-- The files of the programs of the system. -/
def files : List (String × ByteArray) :=
  (shells.map (·.1) ++ works.map (·.1)).map (fun name => (name, Image.code name)) ++
    scripts.map fun (name, text) => (name, Raw.toArray text)

end Pkgset.Tool
