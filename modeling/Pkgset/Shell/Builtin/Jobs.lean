import Pkgset.Shell.Builtin.Options
import Pkgset.Shell.Expansion

/-!
# Builtin commands on processes and signals
-/

namespace Pkgset.Shell.Builtin
open Kernel

/-! ## Waiting -/

/-- Tells of a signal that has ended a process. Two signals are so common that nothing is
    said of them. -/
def tellEnding (ending : Exit) : Run Unit := do
  match ending with
  | .exited _ => return ()
  | .killed signal =>
    if signal = 2 || signal = 13 then return ()
    if !(← get).isRich then Run.complainRaw (Signal.wording signal ++ "\n")

/-- Waits for a process of the shell, and gives its status. -/
def await (id : ProcessId) : Run Nat := do
  match ← Run.act (Act.waitFor id false) with
  | none => return 127
  | some ending =>
    tellEnding ending
    return ending.status

/-- The status of a job that has ended. -/
def jobStatus (job : Job) : Nat :=
  match job.processes.getLast? with
  | some (_, some ending) => ending.status
  | _ => 0

/-- Whether all processes of a job have ended. -/
def Job.isDone (job : Job) : Bool := job.processes.all (·.2.isSome)

/-- Puts a job in the place of the one with its number. -/
def noteJob (job : Job) : Run Unit :=
  modify fun session =>
    { session with jobs := session.jobs.map fun other => if other.number = job.number then job else other }

/-- Waits for the processes of a job. Nothing is given if a signal comes first. -/
def awaitProcesses : List (ProcessId × Option Exit) → Run (Option (List (ProcessId × Option Exit)))
  | [] => return some []
  | (id, some ending) :: rest => return (← awaitProcesses rest).map ((id, some ending) :: ·)
  | (id, none) :: rest => do
    match ← Run.act (Act.waitFor id true) with
    | some ending =>
      tellEnding ending
      return (← awaitProcesses rest).map ((id, some ending) :: ·)
    | none => return none

/-- Waits for a job, and gives its status; if a signal comes first, the status tells of it. -/
def awaitJob (job : Job) : Run Nat := do
  match ← awaitProcesses job.processes with
  | some processes =>
    let job := { job with processes, waited := true }
    noteJob job
    return jobStatus job
  | none =>
    let pending ← Run.act (Act.look fun world id => (world.record? id).elim [] (·.pending))
    return 128 + pending.headD 0

/-- The job that a text with a percent sign names. -/
def jobOf? (session : Session) (text : String) : Option Job :=
  let body := (text.drop 1).toString
  if body = "" || body = "%" || body = "+" then session.jobs.getLast?
  else if body = "-" then (session.jobs.dropLast).getLast?
  else session.jobs.find? fun job => decimal job.number = body

/-- Waits for jobs. -/
def wait (arguments : List String) : Run Nat := do
  let (_, rest) ← options [('n', false), ('f', false)] arguments
  if rest.isEmpty then
    for job in (← get).jobs do
      let status ← awaitJob job
      if 128 < status && !((← get).jobs.any fun other => other.number = job.number && other.waited) then return status
    return 0
  let mut status := 127
  for text in rest do
    let session ← get
    let job ← if text.startsWith "%" then pure (jobOf? session text) else do
        let id ← number text
        pure (session.jobs.find? fun job => job.processes.getLast?.any (·.1 = id))
    match job with
    | none =>
      if (← get).isRich then Run.complain ("pid " ++ text ++ " is not a child of this shell")
      status := 127
    | some job => status := ← awaitJob job
  return status

/-- Notes which jobs have ended. -/
def pollJobs : Run Unit := do
  for job in (← get).jobs do
    let processes ← job.processes.mapM fun (id, ending) => do
      match ending with
      | some ending => return (id, some ending)
      | none =>
        if ← Run.act (Act.look fun world _ => world.hasEnded id) then
          return (id, ← Run.act (Act.waitFor id false))
        else return (id, none)
    noteJob { job with processes }

/-- The state of a process for people. -/
def stateText (ending : Option Exit) : String :=
  match ending with
  | none => "Running"
  | some (.exited 0) => "Done"
  | some (.exited status) => "Done(" ++ decimal status ++ ")"
  | some (.killed signal) => Signal.wording signal

/-- Lists the jobs, and forgets those that have ended. -/
def jobs (arguments : List String) : Run Nat := do
  let (found, _) ← options [('l', false), ('p', false)] arguments
  pollJobs
  let session ← get
  let last := session.jobs.length
  let lines := session.jobs.zipIdx.map fun (job, place) =>
    let flag := if place + 1 = last then "+" else if place + 2 = last then "-" else " "
    let id := job.processes.head?.elim "" fun (id, _) => decimal id
    if found.any (·.1 = 'p') then id ++ "\n"
    else
      let front := "[" ++ decimal job.number ++ "] " ++ flag ++ " " ++
        (if found.any (·.1 = 'l') then id ++ " " else "")
      let state := stateText (match job.processes.getLast? with
        | some (_, ending) => ending
        | none => none)
      let text := front ++ state
      text ++ String.ofList (List.replicate (max 1 (33 - text.length)) ' ') ++ "\n"
  modify fun session => { session with jobs := session.jobs.filter (!Job.isDone ·) }
  Run.emit (String.join lines)

/-- Forgets jobs, so that nobody waits for them. -/
def disown (arguments : List String) : Run Nat := do
  let (found, rest) ← options [('h', false), ('a', false), ('r', false)] arguments
  let session ← get
  if found.any (·.1 = 'a') then
    set { session with jobs := [] }
    return 0
  let targets := if rest.isEmpty then ["%%"] else rest
  for text in targets do
    match if text.startsWith "%" then jobOf? session text else
        session.jobs.find? fun job => job.processes.any fun (id, _) => decimal id = text with
    | some job => modify fun now => { now with jobs := now.jobs.filter (·.number != job.number) }
    | none => Run.failWith 1 ((if text = "%%" then "current" else text) ++ ": no such job")
  return 0

/-- Adds a job. -/
def addJob (processes : List ProcessId) : Run Unit := do
  modify fun session =>
    let kept := session.jobs.filter fun job => !(job.waited && Job.isDone job)
    let number := ((List.range (kept.length + 1)).find? fun n => !kept.any (·.number = n + 1)).getD 0 + 1
    { session with
      jobs := kept ++ [⟨number, processes.map fun id => (id, none), false⟩], background? := processes.getLast? }

/-! ## Signals -/

/-- Sends a signal to a process, if there is one. -/
def send (signal : Nat) (id : ProcessId) : Run Bool := Run.act fun _ next => .act fun world =>
  match world.record? id with
  | none => (world, next false)
  | some _ => (if signal = 0 then world else world.signal id signal, next true)

/-- The signal of a name or a number; zero has a number only. -/
def signalOf? (text : String) : Option Nat :=
  let text := if text.toUpper.startsWith "SIG" then text else text
  match Signal.ofText? text with
  | some 0 => if text.all Char.isDigit then some 0 else none
  | found => found

/-- Sends signals, or tells their names. -/
def kill (arguments : List String) : Run Nat := do
  let rich := (← get).isRich
  let usage {α : Type} : Run α :=
    if rich then misuse
    else Run.fail
      "Usage: kill [-s sigspec | -signum | -sigspec] [pid | job]... or\nkill -l [exitstatus]"
  let sigOf? (text : String) : Option Nat :=
    if rich && text.toUpper.startsWith "SIG" then signalOf? ((text.drop 3).toString) else signalOf? text
  let (listed, signal, targets) ← match arguments with
    | [] => usage
    | first :: rest =>
      if !first.startsWith "-" then pure (false, none, arguments)
      else match if first = "-" then none else sigOf? (first.drop 1).toString with
        | some signal => pure (false, some signal, rest)
        | none => do
          let letter := ((first.drop 1).toString.toList).headD '-'
          if rich && ! ['l', 'L', 's', 'n', '-'].contains letter then
            Run.failWith 1 ((first.drop 1).toString ++ ": invalid signal specification")
          let (found, rest) ← options (if rich then [('l', false), ('s', true), ('n', true)] else [('l', false), ('s', true)])
            arguments
          let signal ← match found.find? fun (c, _) => c != 'l' with
            | some (_, name) => do
              match sigOf? name with
              | some signal => pure (some signal)
              | none =>
                if rich then Run.failWith 1 (name ++ ": invalid signal specification")
                else Run.fail ("invalid signal number or name: " ++ name)
            | none => pure none
          pure (found.any (·.1 = 'l'), signal, rest)
  if listed then
    match targets with
    | [] =>
      let names := (List.range Signal.last).map fun n => Signal.name (n + 1) ++ "\n"
      Run.emit ("0\n" ++ String.join names)
    | text :: _ =>
      if rich && !text.all Char.isDigit then
        match sigOf? text with
        | some signal => Run.emit (decimal signal ++ "\n")
        | none => Run.failWith 1 (text ++ ": invalid signal specification")
      else
        let n ← number text
        let n := if 128 < n then n - 128 else n
        if 0 < n && n ≤ Signal.last then Run.emit (Signal.name n ++ "\n")
        else Run.fail ("invalid signal number or exit status: " ++ text)
  else if targets.isEmpty then usage
  else
    let mut status := 0
    for text in targets do
      let session ← get
      let id ← if text.startsWith "%" then do
          match jobOf? session text with
          | some job => pure (job.processes.head?.elim 0 (·.1))
          | none => Run.fail ("No such job: " ++ text)
        else if text.startsWith "-" then do
          discard (number (text.drop 1).toString)
          pure 0
        else if rich && !text.all Char.isDigit then
          Run.failWith 1 (text ++ ": arguments must be process or job IDs")
        else number text
      if !(← send (signal.getD 15) id) then
        if rich then Run.complain ("(" ++ text ++ ") - No such process") else Run.complain "No such process\n"
        status := 1
    return status

/-- Says what the kernel does with a signal for the shell. -/
def arrange (signal : Nat) (action : Option String) : Run Unit := do
  if signal = 0 || signal = Signal.trouble then return ()
  Run.act (Act.change fun world id => world.setRecord id fun record =>
    let ignored := record.ignored.filter (· != signal)
    let caught := record.caught.filter (· != signal)
    match action with
    | none => { record with ignored, caught }
    | some "" => { record with ignored := signal :: ignored, caught }
    | some _ => { record with ignored, caught := signal :: caught })

/-- Sets what is done when signals come, or lists it. -/
def trap (arguments : List String) : Run Nat := do
  let rich := (← get).isRich
  let name (signal : Nat) : String :=
    if rich && signal ≠ 0 && signal ≠ Signal.trouble then "SIG" ++ Signal.name signal else Signal.name signal
  let sigOf? (text : String) : Option Nat :=
    if rich && text.toUpper = "ERR" then some Signal.trouble
    else if rich && text.toUpper.startsWith "SIG" then Signal.ofText? (text.drop 3).toString else Signal.ofText? text
  let (found, rest) ← options (if rich then [('l', false), ('p', false)] else []) arguments
  match rest with
  | [] =>
    let session ← get
    let lines := (List.range (Signal.trouble + 1)).filterMap fun signal =>
      (session.traps.lookup signal).map fun action =>
        "trap -- " ++ (if rich then Expansion.singleQuoted action else Session.quoted action) ++ " " ++ name signal ++ "\n"
    Run.emit (String.join lines)
  | first :: more =>
    if found.any (·.1 = 'p') then
      let session ← get
      let lines := rest.filterMap fun text => (sigOf? text).bind fun signal =>
        (session.traps.lookup signal).map fun action =>
          "trap -- " ++ Expansion.singleQuoted action ++ " " ++ name signal ++ "\n"
      return ← Run.emit (String.join lines)
    let resets := more.isEmpty || (first ≠ "" && first.all Char.isDigit && (Signal.ofText? first).isSome)
    let (action, signals) := if resets then (none, rest) else (if first = "-" then none else some first, more)
    let mut status := 0
    for text in signals do
      match sigOf? text with
      | none =>
        if rich then Run.complain (text ++ ": invalid signal specification")
        else
          Run.complainRaw ("trap: " ++ text ++ ": bad trap\n")
          return 1
        status := 1
      | some signal =>
        if !(← get).deaf.contains signal then
          modify fun session =>
            let others := session.traps.filter (·.1 != signal)
            { session with traps := (action.map fun action => (signal, action)).toList ++ others }
          arrange signal action
    return status

/-! ## Limits and masks -/

/-- The classes of users with their places in permission bits. -/
def userPlaces : List (Char × Nat) := [('u', 64), ('g', 8), ('o', 1)]

/-- A mask in words. -/
def maskText (mask : Nat) : String :=
  ",".intercalate (userPlaces.map fun (who, place) =>
    let bits := (mask / place) % 8
    let allowed := [('r', 4), ('w', 2), ('x', 1)].filterMap fun (c, bit) => if bits &&& bit = 0 then some c else none
    String.ofList (who :: '=' :: allowed))

/-- A change of permissions in words, and what is left of it. -/
def maskChange : Nat → Nat → Nat → Nat → List Char → Nat × List Char
  | 0, _, new, _, text => (new, text)
  | bound + 1, old, new, positions, text =>
    let who := text.takeWhile ['a', 'u', 'g', 'o'].contains
    let positions := who.foldl (fun found c =>
      found ||| (if c = 'a' then 0o111 else (userPlaces.lookup c).getD 0)) positions
    let positions := if positions = 0 then 0o111 else positions
    match text.drop who.length with
    | op :: rest =>
      if ! ['=', '+', '-'].contains op then (new, op :: rest)
      else
        let rights := rest.takeWhile ['r', 'w', 'x', 'u', 'g', 'o', 'X', 's'].contains
        let value := rights.foldl (fun found c => found ||| (match c with
          | 'r' => 4
          | 'w' => 2
          | 'x' => 1
          | 'u' => old / 64
          | 'g' => old / 8
          | 'o' => old
          | 'X' => if old &&& 0o111 != 0 then 1 else 0
          | _ => 0)) 0
        let value := (value % 8) * positions
        let new := match op with
          | '-' => new &&& (0o777 ^^^ value)
          | '=' => value ||| (new &&& (0o777 ^^^ (positions * 7)))
          | _ => new ||| value
        match rest.drop rights.length with
        | ',' :: rest => maskChange bound old new 0 rest
        | c :: rest => if ['=', '+', '-'].contains c then maskChange bound old new positions (c :: rest) else (new, c :: rest)
        | [] => (new, [])
    | [] => (new, [])

/-- A number in octal digits, at least four of them. -/
def octalText (n : Nat) : String :=
  let digits := Nat.toDigits 8 n
  String.ofList (List.replicate (4 - digits.length) '0' ++ digits)

/-- Sets or tells the permissions that new files do not get. -/
def umask (arguments : List String) : Run Nat := do
  let rich := (← get).isRich
  let (found, rest) ← options (if rich then [('S', false), ('p', false)] else [('S', false)]) arguments
  let mask ← Run.act (Act.look fun world id => (world.record? id).elim 0 (·.mask))
  match rest with
  | [] => Run.emit ((if found.any (·.1 = 'S') then maskText mask else octalText mask) ++ "\n")
  | text :: _ =>
    let chars := text.toList
    let new ← if chars.head?.any Char.isDigit then
        if chars.all fun c => '0' ≤ c && c ≤ '7' then
          pure (chars.foldl (fun n c => 8 * n + (c.toNat - 48)) 0)
        else if rich then Run.failWith 1 (text ++ ": octal number out of range")
        else Run.fail ("Illegal number: " ++ text)
      else
        let (new, left) := maskChange (chars.length + 1) (0o777 ^^^ mask) (0o777 ^^^ mask) 0 chars
        if left.isEmpty then pure (0o777 ^^^ new)
        else if rich then Run.failWith 1 ("\x60" ++ (left.take 1).foldl String.push "" ++ "': invalid symbolic mode operator")
        else Run.fail ("Illegal mode: " ++ text)
    Run.act (Act.change fun world id => world.setRecord id fun record => { record with mask := new % 512 })
    return 0

/-- The limits of processes: what they are of, their letters and their values. -/
def limits : List (String × Char × String) := [
  ("time(seconds)", 't', "unlimited"), ("file(blocks)", 'f', "unlimited"), ("data(kbytes)", 'd', "unlimited"),
  ("stack(kbytes)", 's', "8192"), ("coredump(blocks)", 'c', "0"), ("memory(kbytes)", 'm', "unlimited"),
  ("locked memory(kbytes)", 'l', "8192"), ("process", 'p', "128620"), ("nofiles", 'n', "1024"),
  ("vmemory(kbytes)", 'v', "unlimited"), ("locks", 'w', "unlimited"), ("rtprio", 'r', "0")]

/-- Tells the limits of processes, which keep their values. -/
def ulimit (arguments : List String) : Run Nat := do
  let rich := (← get).isRich
  let known : Letters := (['H', 'S', 'a'] ++ (if rich then "bceiklPqRuxT".toList else []) ++ limits.map (·.2.1)).map
    fun c => (c, false)
  let (found, rest) ← options known arguments
  let letter := ((found.filter fun (c, _) => ! ['H', 'S', 'a'].contains c).getLast?).elim 'f' (·.1)
  if found.any (·.1 = 'a') then
    Run.emit (String.join (limits.map fun (name, _, value) =>
      name ++ String.ofList (List.replicate (20 - name.length) ' ') ++ " " ++ value ++ "\n"))
  else match rest with
    | [] => Run.emit (((limits.find? (·.2.1 = letter)).elim "unlimited" (·.2.2)) ++ "\n")
    | text :: _ =>
      if text = "unlimited" || (text ≠ "" && text.all Char.isDigit) then return 0
      else if rich then Run.failWith 1 (text ++ ": invalid number")
      else Run.fail "bad number"

/-- Tells the times that processes have used. -/
def times (_ : List String) : Run Nat := do
  if (← get).isRich then Run.emit "0m0.000s 0m0.000s\n0m0.000s 0m0.000s\n"
  else Run.emit "0m0.000000s 0m0.000000s\n0m0.000000s 0m0.000000s\n"

end Pkgset.Shell.Builtin
