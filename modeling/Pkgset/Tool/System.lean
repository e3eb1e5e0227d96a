import Pkgset.Kernel.Account
import Pkgset.Text.Calendar
import Pkgset.Tool.Work

/-!
# Programs that tell of the system
-/

namespace Pkgset.Tool
open Kernel

/-- Writes a moment. -/
def date (arguments : List String) : Work Nat := do
  let given ← Work.options "d/date: f/file: I/iso-8601? r/reference: R/rfc-email s/set: u/utc u/universal /rfc-3339:" arguments
  let now ← Work.act (Act.look fun world _ => world.now)
  let (seconds, nanoseconds) ← match given.last? "d", given.last? "r" with
    | some text, _ =>
      match Moment.ofText? (Int.fdiv now 1000000000) text with
      | some moment => pure moment
      | none => Work.fail 1 ("invalid date " ++ quoted text)
    | none, some path =>
      match ← Work.call (Syscall.inspect · true path) with
      | .ok (_, inode) => pure (Int.fdiv inode.modified 1000000000, (Int.emod inode.modified 1000000000).toNat)
      | .error cause => Work.fail 1 (about path cause)
    | none, none => pure (Int.fdiv now 1000000000, (Int.emod now 1000000000).toNat)
  let format ← match given.operands with
    | [] =>
      if given.has "R" then pure "%a, %d %b %Y %H:%M:%S %z"
      else match given.last? "I" with
        | none => pure "%a %b %e %H:%M:%S %Z %Y"
        | some kind => pure (match kind with
          | "hours" => "%Y-%m-%dT%H%:z"
          | "minutes" => "%Y-%m-%dT%H:%M%:z"
          | "seconds" => "%Y-%m-%dT%H:%M:%S%:z"
          | "ns" => "%Y-%m-%dT%H:%M:%S,%N%:z"
          | _ => "%Y-%m-%d")
    | [text] =>
      if text.startsWith "+" then pure (text.drop 1).toString else Work.fail 1 ("invalid date " ++ quoted text)
    | _ :: extra :: _ => Work.misuse 1 ("extra operand " ++ quoted extra)
  Work.put (Moment.format seconds nanoseconds format ++ "\n")
  return 0

/-- Tells of the system. -/
def uname (arguments : List String) : Work Nat := do
  let given ← Work.options
    "a/all s/kernel-name n/nodename r/kernel-release v/kernel-version m/machine p/processor i/hardware-platform o/operating-system"
    arguments
  if let extra :: _ := given.operands then Work.misuse 1 ("extra operand " ++ quoted extra)
  let parts := [("s", "Linux"), ("n", "localhost"), ("r", "6.1.0"), ("v", "#1 SMP"), ("m", "x86_64"), ("p", "x86_64"),
    ("i", "x86_64"), ("o", "GNU/Linux")]
  let chosen := parts.filter fun (key, _) => given.has key || given.has "a" || (given.options.isEmpty && key = "s")
  Work.put (" ".intercalate (chosen.map (·.2)) ++ "\n")
  return 0

/-- Tells of the machine. -/
def arch (_ : List String) : Work Nat := do
  Work.put "x86_64\n"
  return 0

/-- Tells how many processors there are. -/
def nproc (_ : List String) : Work Nat := do
  Work.put "4\n"
  return 0

/-- Tells the name of the machine. -/
def hostname (_ : List String) : Work Nat := do
  Work.put "localhost\n"
  return 0

/-- Tells the user. -/
def whoami (_ : List String) : Work Nat := do
  Work.put "root\n"
  return 0

/-- Tells that there is no terminal. -/
def tty (arguments : List String) : Work Nat := do
  let given ← Work.options "s/silent s/quiet" arguments
  if !given.has "s" then Work.put "not a tty\n"
  return 1

/-- Tells of a user. -/
def id (arguments : List String) : Work Nat := do
  let given ← Work.options "u/user g/group G/groups n/name r/real z/zero" arguments
  let name := given.operands.headD "root"
  let some account := Account.find? name | Work.fail 1 (quoted name ++ ": no such user")
  let named := given.has "n"
  let shown (number : Nat) : String := if named then account.name else digits number
  Work.put ((
    if given.has "u" then shown account.user
    else if given.has "g" || given.has "G" then shown account.group
    else
      let both (number : Nat) : String := digits number ++ "(" ++ account.name ++ ")"
      "uid=" ++ both account.user ++ " gid=" ++ both account.group ++ " groups=" ++ both account.group) ++ "\n")
  return 0

end Pkgset.Tool
