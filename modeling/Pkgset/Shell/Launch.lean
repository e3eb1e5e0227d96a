import Pkgset.Shell.Evaluation

/-!
# Starting a shell

A shell takes options, and then the text of a command, the path of a file, or the
standard input for what it runs. The environment that it is given becomes variables.
-/

namespace Pkgset.Shell
open Kernel

namespace Launch

/-- The search path of a shell that is given none. -/
def defaultPath : String := Locate.systemPath

/-- The variables that every shell has, whatever it is given. -/
def ownVariables (rich : Bool) (parent : ProcessId) : List (String × String) :=
  let common := [("IFS", " \t\n"), ("OPTIND", "1"), ("PPID", decimal parent), ("PS4", "+ "), ("PATH", defaultPath)]
  if rich then
    common ++ [("BASH", "/bin/bash"), ("BASH_VERSION", "5.2.21(1)-release"), ("UID", "0"), ("EUID", "0"),
      ("HOSTTYPE", "x86_64"), ("MACHTYPE", "x86_64-pc-linux-gnu"), ("OSTYPE", "linux-gnu"), ("OPTERR", "1"),
      ("TERM", "dumb"), ("SHELL", "/bin/bash")]
  else common ++ [("PS1", "# "), ("PS2", "> ")]

/-- The parts of the version of a rich shell, as a constant. -/
def versionParts : Variable :=
  { Variable.fresh with
    value := .items [(0, "5"), (1, "2"), (2, "21"), (3, "1"), (4, "release"), (5, "x86_64-pc-linux-gnu")]
    readOnly := true }

/-- The variables that keep their first values, whatever is given for them. -/
def fixed : List String := ["IFS", "OPTIND", "PPID", "UID", "EUID", "BASH", "BASH_VERSION"]

/-- The variables of a shell that is given an environment. -/
def variablesOf (rich : Bool) (parent : ProcessId) (environment : List String) : List (String × Variable) :=
  let own := (ownVariables rich parent).map fun (name, text) => (name, { Variable.fresh with value := .text text })
  let own := if rich then own ++ [("BASH_VERSINFO", versionParts)] else own
  environment.foldl (fun found entry =>
    match Builtin.assignment? entry with
    | some (name, text) =>
      if !Reader.isName name then found
      else
        let text := if fixed.contains name then
          (((ownVariables rich parent).lookup name).getD text) else text
        Session.put found name { Variable.fresh with value := .text text, exported := true }
    | none => found) own

/-- A session before anything runs. -/
def session (dialect : Dialect) (self : ProcessId) (record : Option Record) (image : Image) : Session :=
  { dialect
    name := image.arguments.headD ""
    parameters := []
    bindings := variablesOf (dialect = .rich) (record.elim 0 (·.parent)) image.environment
    functions := []
    aliases := []
    located := []
    traps := []
    deaf := record.elim [] (·.ignored)
    options := if dialect = .rich then Builtin.richDefaults else []
    status := 0
    outputStatus := 0
    root := self
    background? := none
    jobs := []
    texts := []
    number := 0
    line := 0
    reading := 1
    command? := none
    origin? := none
    loops := 0
    calls := 0
    saved := []
    optionIndex := 1
    optionPlace? := none
    folder := ""
    folders := []
    features := if dialect = .rich then Builtin.defaultFeatures else []
    trapStatus? := none
    lent := [] }

/-- Finds out which folder the shell is in: the path that it is told, if that leads
    there, and else the path without links. -/
def findFolder : Run Unit := do
  let session ← get
  let told := (session.text? "PWD").getD ""
  let isHere ← if !told.startsWith "/" then pure false else Run.act do
    match ← Act.call (Syscall.inspect · true told), ← Act.call (Syscall.inspect · true ".") with
    | .ok (a, _), .ok (b, _) => return a = b
    | _, _ => return false
  if isHere then Builtin.noteFolder told false
  else
    let path ← Builtin.physicalFolder
    Builtin.noteFolder path false

/-- Counts how deep shells are started in each other. -/
def countDepth : Run Unit := modify fun session =>
  let depth := ((session.text? "SHLVL").bind String.toNat?).getD 0
  session.setVariable "SHLVL" { Variable.fresh with value := .text (decimal (depth + 1 : Nat)), exported := true }

/-- What the letters of an argument ask for: whether a command follows, and which names
    of options are taken from the arguments behind. -/
def letters (on : Bool) : List Char → List String → Run (Bool × List String)
  | [], rest => return (false, rest)
  | c :: more, rest => do
    if c = 'c' then
      let (_, rest) ← letters on more rest
      return (true, rest)
    else if c = 'l' || ((← get).isRich && ['i', 'r', 's', 'D'].contains c) then letters on more rest
    else if c = 'O' && (← get).isRich then letters on more (rest.drop 1)
    else
      let rest ← Builtin.setLetters on [c] rest
      letters on more rest

/-- Reads the options of a shell, and tells whether a command follows. -/
def options : Nat → List String → Run (Bool × List String)
  | 0, arguments => return (false, arguments)
  | bound + 1, arguments => do
    match arguments with
    | [] => return (false, [])
    | first :: rest =>
      let rich := (← get).isRich
      if rich && ["--posix", "--norc", "--noprofile", "--login", "--noediting", "--verbose"].contains first then
        options bound rest
      else match first.toList with
        | ['-'] | ['-', '-'] => return (false, rest)
        | mark :: chars =>
          if mark != '-' && mark != '+' then return (false, arguments)
          else
            let (command, rest) ← letters (mark = '-') chars rest
            let (more, rest) ← options bound rest
            return (command || more, rest)
        | [] => return (false, arguments)

/-- Whether the letters of options ask for the standard input. -/
def asksInput (arguments : List String) : Bool :=
  (arguments.takeWhile fun text => text.startsWith "-" && text != "--" && text != "-").any fun text =>
    !text.startsWith "--" && text.contains 's'

section
variable (programs : Programs)

/-- Runs a text. -/
def run (text : String) (label? : Option String := none) : Run Unit := do
  discard (Evaluation.runText (Evaluation.evaluate programs Evaluation.depthLimit false false) text label?)

/-- Runs what is read from the standard input. -/
def runInput : Run Unit := do
  match ← Run.act (Act.readAll 0) with
  | .ok bytes => run programs (Raw.ofArray bytes)
  | .error _ => return ()

/-- Runs the text of a file. -/
def runFile (path : String) : Run Unit := do
  let rich := (← get).isRich
  match ← Run.act (Act.readFile path) with
  | .ok bytes =>
    modify fun session => { session with name := path }
    run programs (Raw.ofArray bytes)
  | .error .isFolder =>
    if rich then
      Run.complainRaw (path ++ ": " ++ path ++ ": Is a directory\n")
      Run.setStatus 126
  | .error cause =>
    if rich then
      Run.complainRaw ((← get).name ++ ": " ++ path ++ ": " ++ cause.message ++ "\n")
      Run.setStatus 127
    else Run.fail ("cannot open " ++ path ++ ": " ++ Redirection.wording cause "No such file")

/-- Runs what the arguments of a shell ask for. -/
def main (arguments : List String) : Run Unit := do
  findFolder
  let rich := (← get).isRich
  if rich then countDepth
  let (asksCommand, rest) ← options (arguments.length + 1) arguments
  let input := asksInput arguments || (!asksCommand && rest.isEmpty)
  if input then modify (·.setOption 's' true)
  if asksCommand then
    match rest with
    | [] =>
      if rich then
        Run.complainRaw ((← get).name ++ ": -c: option requires an argument\n")
        Run.setStatus 2
      else Run.fail "-c requires an argument"
    | text :: rest =>
      modify fun session =>
        { session with name := rest.headD session.name, parameters := rest.drop 1 }
      modify (·.setOption 'c' true)
      run programs text (some "-c")
      if input && !rich then runInput programs
  else if input then
    modify fun session => { session with parameters := rest }
    runInput programs
  else match rest with
    | [] => return ()
    | path :: rest =>
      modify fun session => { session with parameters := rest }
      runFile programs path

/-- A shell as a program. -/
def shell (dialect : Dialect) (image : Image) : Act Nat := fun id next =>
  let start : Act Nat := do
    let record ← Act.look fun world id => world.record? id
    let action := Evaluation.concluded programs Evaluation.depthLimit (main programs (image.arguments.drop 1))
    let (result, session) ← (action.run).run (session dialect id record image)
    match result with
    | .ok status => return status % 256
    | .error _ => return session.status % 256
  start id next

end
end Launch
end Pkgset.Shell
