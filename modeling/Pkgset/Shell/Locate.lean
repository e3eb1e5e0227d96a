import Pkgset.Shell.Parameter

/-!
# Where commands are found

A command without a separator in its name is a program in the first folder of the
search path that has one of that name.
-/

namespace Pkgset.Shell
open Kernel

namespace Locate

/-- The paths that a name may have. -/
def candidates (path name : String) : List String :=
  (path.splitOn ":").map fun folder => if folder = "" then name else folder ++ "/" ++ name

/-- The first of several paths that somebody may run, or why there is none. -/
def firstOf : List String → Cause → Act (Except Cause String)
  | [], cause => return .error cause
  | path :: rest, cause => do
    match ← Act.call (Syscall.inspect · true path) with
    | .ok (_, inode) =>
      if inode.isFile && inode.isExecutable then return .ok path else firstOf rest .denied
    | .error found =>
      firstOf rest (match found with
        | .notFound | .notFolder => cause
        | other => other)

/-- The program of a name in a search path. -/
def program (path name : String) : Act (Except Cause String) := firstOf (candidates path name) .notFound

/-- The file of a name in a search path, whether it may be run or not. -/
def firstFile : List String → Act (Option String)
  | [] => return none
  | path :: rest => do
    match ← Act.call (Syscall.inspect · true path) with
    | .ok (_, inode) => if inode.isFile then return some path else firstFile rest
    | .error _ => firstFile rest

/-- What is said of a command that is not there. -/
def wording (cause : Cause) : String :=
  match cause with
  | .notFound | .notFolder => "not found"
  | cause => cause.message

/-- The search path of the shell. -/
def searchPath (session : Session) : String := (session.text? "PATH").getD ""

/-- The search path that finds the programs of the system. -/
def systemPath : String := "/usr/local/sbin:/usr/local/bin:/usr/sbin:/usr/bin:/sbin:/bin"

/-- The program of a name. Where it was found is remembered. -/
def remembered (name : String) : Run (Except Cause String) := do
  let session ← get
  match session.located.lookup name with
  | some found => return .ok found.path
  | none =>
    match ← Run.act (program (searchPath session) name) with
    | .ok path =>
      modify fun session => { session with located := Session.put session.located name ⟨path⟩ }
      return .ok path
    | .error cause => return .error cause

end Locate
end Pkgset.Shell
