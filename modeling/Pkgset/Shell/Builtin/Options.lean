import Pkgset.Shell.Arithmetic
import Pkgset.Shell.Parameter
import Pkgset.Shell.Reader
import Pkgset.Shell.Session

/-!
# Options and numbers of builtin commands
-/

namespace Pkgset.Shell.Builtin
open Kernel

/-! ## The use of builtin commands

A rich shell tells how a builtin command is used when its options are wrong.
-/

/-- The arguments of a declaration. -/
def declareUsage : String := "[-aAfFgiIlnrtux] "

/-- The arguments of a command that reads rows. -/
def rowsUsage : String :=
  "[-d delim] [-n count] [-O origin] [-s count] [-t] [-u fd] [-C callback] [-c quantum] [array]"

/-- The arguments of builtin commands, by their names. -/
def usages : List (String × String) := [
  (".", "filename [arguments]"), ("alias", "[-p] [name[=value] ... ]"), ("builtin", "[shell-builtin [arg ...]]"),
  ("caller", "[expr]"), ("cd", "[-L|[-P [-e]] [-@]] [dir]"), ("command", "[-pVv] command [arg ...]"),
  ("declare", declareUsage ++ "[name[=value] ...] or declare -p [-aAfFilnrtux] [name ...]"),
  ("dirs", "[-clpv] [+N] [-N]"), ("disown", "[-h] [-ar] [jobspec ... | pid ...]"),
  ("enable", "[-a] [-dnps] [-f filename] [name ...]"), ("eval", "[arg ...]"),
  ("exec", "[-cl] [-a name] [command [argument ...]] [redirection ...]"),
  ("export", "[-fn] [name[=value] ...] or export -p"), ("getopts", "optstring name [arg ...]"),
  ("hash", "[-lr] [-p pathname] [-dt] [name ...]"), ("help", "[-dms] [pattern ...]"),
  ("jobs", "[-lnprs] [jobspec ...] or jobs -x command [args]"),
  ("kill", "[-s sigspec | -n signum | -sigspec] pid | jobspec ... or kill -l [sigspec]"),
  ("local", "[option] name[=value] ..."), ("mapfile", rowsUsage), ("popd", "[-n] [+N | -N]"),
  ("printf", "[-v var] format [arguments]"), ("pushd", "[-n] [+N | -N | dir]"), ("pwd", "[-LP]"),
  ("read",
    "[-ers] [-a array] [-d delim] [-i text] [-n nchars] [-N nchars] [-p prompt] [-t timeout] [-u fd] [name ...]"),
  ("readarray", rowsUsage), ("readonly", "[-aAf] [name[=value] ...] or readonly -p"),
  ("set", "[-abefhkmnptuvxBCEHPT] [-o option-name] [--] [-] [arg ...]"), ("shopt", "[-pqsu] [-o] [optname ...]"),
  ("source", "filename [arguments]"), ("trap", "[-lp] [[arg] signal_spec ...]"),
  ("type", "[-afptP] name [name ...]"),
  ("typeset", declareUsage ++ "name[=value] ... or typeset -p [-aAfFilnrtux] [name ...]"),
  ("ulimit", "[-SHabcdefiklmnpqrstuvxPRT] [limit]"), ("umask", "[-p] [-S] [mode]"),
  ("unalias", "[-a] name [name ...]"), ("unset", "[-f] [-v] [-n] [name ...]"), ("wait", "[-fn] [-p var] [id ...]")]

/-- Tells how the command that runs is used. -/
def tellUsage : Run Unit := do
  let name := (← get).command?.getD ""
  if let some arguments := usages.lookup name then
    Run.complainRaw (name ++ ": usage: " ++ name ++ " " ++ arguments ++ "\n")

/-- Tells how the command that runs is used, and stops. -/
def misuse {α : Type} : Run α := do
  tellUsage
  Run.setStatus 2
  throw .failure

/-- Says what is wrong, tells how the command that runs is used, and stops. -/
def misuseWith {α : Type} (text : String) : Run α := do
  Run.complain text
  misuse

/-! ## Letters and numbers -/

/-- The letters of options that a builtin command knows, and whether each has an argument. -/
abbrev Letters := List (Char × Bool)

/-- Reads the letters of one argument. -/
def letters (known : Letters) : List Char → List String → Run (List (Char × String) × List String)
  | [], rest => return ([], rest)
  | c :: more, rest => do
    match known.lookup c with
    | none =>
      if (← get).isRich then misuseWith ("-" ++ c.toString ++ ": invalid option")
      else Run.fail ("Illegal option -" ++ c.toString)
    | some true =>
      if !more.isEmpty then return ([(c, String.ofList more)], rest)
      else match rest with
        | value :: rest => return ([(c, value)], rest)
        | [] =>
          if (← get).isRich then misuseWith ("-" ++ c.toString ++ ": option requires an argument")
          else Run.fail ("No arg for -" ++ c.toString ++ " option")
    | some false =>
      let (found, rest) ← letters known more rest
      return ((c, "") :: found, rest)

/-- Reads the options in front of arguments, within a number of arguments. -/
def optionsWithin (known : Letters) : Nat → List String → Run (List (Char × String) × List String)
  | 0, arguments => return ([], arguments)
  | bound + 1, arguments => do
    match arguments with
    | "--" :: rest => return ([], rest)
    | first :: rest =>
      match first.toList with
      | '-' :: c :: more => do
        let (found, rest) ← letters known (c :: more) rest
        let (others, rest) ← optionsWithin known bound rest
        return (found ++ others, rest)
      | _ => return ([], arguments)
    | [] => return ([], [])

/-- Reads the options in front of arguments. -/
def options (known : Letters) (arguments : List String) : Run (List (Char × String) × List String) :=
  optionsWithin known (arguments.length + 1) arguments

/-- The greatest number that an argument may be. -/
def numberLimit : Int := 2147483647

/-- The number that an argument is. -/
def number (text : String) : Run Nat := do
  match Arithmetic.number? 10 text with
  | some n => if 0 ≤ n && n ≤ numberLimit then return n.toNat else wrong
  | none => wrong
where
  /-- Stops at an argument that is no such number. -/
  wrong {α : Type} : Run α := do
    if (← get).isRich then Run.failWith 2 (text ++ ": numeric argument required") else Run.fail ("Illegal number: " ++ text)

/-- Whether a text may be the name of a variable; if not, the shell says so. -/
def checkName (name : String) : Run Unit := do
  if !Reader.isName name then
    if (← get).isRich then Run.failWith 1 ("\x60" ++ name ++ "': not a valid identifier")
    else Run.fail (name ++ ": bad variable name")

/-- Gives a variable a text, if its name may be one. -/
def setChecked (name text : String) : Run Unit := do
  checkName name
  Run.assign name text

/-- The name and the value that an assignment has. -/
def assignment? (text : String) : Option (String × String) :=
  let name := text.toList.takeWhile (· ≠ '=')
  if name.length < text.length then some (String.ofList name, String.ofList (text.toList.drop (name.length + 1)))
  else none

end Pkgset.Shell.Builtin
