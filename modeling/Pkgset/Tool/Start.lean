import Pkgset.Shell.Locate
import Pkgset.Tool.Work

/-!
# Programs that start other programs
-/

namespace Pkgset.Tool
open Kernel

namespace Work

/-- Lets another program take the place of the one that runs. It is looked for in the
    search path of the environment that it gets. Only a failure comes back. -/
def become (environment arguments : List String) : Work Cause := do
  let programs := (← read).programs
  flush
  act do
    let name := arguments.headD ""
    let entry := environment.find? (·.startsWith "PATH=")
    let search := entry.elim "/bin:/usr/bin" fun entry => (entry.drop 5).toString
    if name.contains '/' then Act.become programs ⟨name, arguments, environment⟩
    else if name = "" then return .notFound
    else match ← Shell.Locate.program search name with
      | .error cause => return cause
      | .ok path => Act.become programs ⟨path, arguments, environment⟩

/-- The status of a program that cannot be started. -/
def statusOf (cause : Cause) : Nat := if cause = .notFound || cause = .notFolder then 127 else 126

/-- Runs another program in a process of its own, and tells how it has ended. Something
    is done first in that process, and something else if the program cannot be started. -/
def spawn (environment arguments : List String) (first : Act Unit) (failed : Cause → Work Nat) : Work (Option Exit) := do
  let setting ← read
  flush
  act do
    let child ← Act.fork do
      first
      asAct setting do
        let cause ← become environment arguments
        failed cause
    Act.waitFor child false

end Work

/-! ## Environments -/

/-- An environment with an entry in place of the one of the same name. -/
def withEntry (environment : List String) (entry : String) : List String :=
  let front := String.ofList (entry.toList.takeWhile (· ≠ '=')) ++ "="
  if environment.any (·.startsWith front) then
    environment.map fun other => if other.startsWith front then entry else other
  else environment ++ [entry]

/-- Runs a program with another environment, or tells the environment. -/
def env (arguments : List String) : Work Nat := do
  let grammar := Grammar.plain
    "i/ignore-environment 0/null u/unset: C/chdir: S/split-string: v/debug /ignore-signal? /default-signal?" false 125
  let given ← grammar.given arguments
  let (empties, operands) := match given.operands with
    | "-" :: rest => (true, rest)
    | rest => (given.has "i", rest)
  let setting ← read
  let start := if empties then [] else setting.image.environment
  let kept := start.filter fun entry => !(given.all "u").any fun name => entry.startsWith (name ++ "=")
  let assignments := operands.takeWhile (·.contains '=')
  let environment := assignments.foldl withEntry kept
  let words := match given.last? "S" with
    | some text => (text.splitOn " ").filter (· ≠ "")
    | none => []
  let command := words ++ operands.drop assignments.length
  if command.isEmpty then
    if given.has "C" then Work.misuse 125 "must specify command with --chdir (-C)"
    for entry in environment do
      Work.put (entry ++ (if given.has "0" then "\x00" else "\n"))
    return 0
  if given.has "0" then Work.misuse 125 "cannot specify --null (-0) with command"
  if let some folder := given.last? "C" then
    if let .error cause ← Work.call (Syscall.enterFolder · folder) then
      Work.fail 125 ("cannot change directory to " ++ quoted folder ++ ": " ++ cause.message)
  let cause ← Work.become environment command
  Work.warn (quoted (command.headD "") ++ ": " ++ cause.message)
  return Work.statusOf cause

/-- Tells values of the environment. -/
def printenv (arguments : List String) : Work Nat := do
  let given ← (Grammar.plain "0/null" false 2).given arguments
  let ending := if given.has "0" then "\x00" else "\n"
  if given.operands.isEmpty then
    for entry in (← read).image.environment do Work.put (entry ++ ending)
    return 0
  let environment ← Work.environment
  let mut status := 0
  for name in given.operands do
    match environment.lookup name with
    | some value => Work.put (value ++ ending)
    | none => status := 1
  return status

/-- Runs a program as it is. -/
def runPlain (status : Nat) (arguments : List String) : Work Nat := do
  let cause ← Work.become (← read).image.environment arguments
  Work.warn ((if status = 125 then "failed to run command " else "") ++ quoted (arguments.headD "") ++ ": " ++ cause.message)
  return Work.statusOf cause

/-- Runs a program that is not ended by the loss of its terminal. -/
def nohup (arguments : List String) : Work Nat := do
  let given ← (Grammar.plain "" false 125).given arguments
  if given.operands.isEmpty then Work.misuse 125 "missing operand"
  Work.act (Act.change fun world id => world.setRecord id fun record => { record with ignored := 1 :: record.ignored })
  runPlain 125 given.operands

/-- Runs a program in a session of its own or with another rank. -/
def nice (arguments : List String) : Work Nat := do
  let given ← (Grammar.plain "n/adjustment:" false 125).given arguments
  if given.operands.isEmpty then
    Work.put "0\n"
    return 0
  runPlain 126 given.operands

/-- The time that a text tells, in nanoseconds. -/
def duration? (text : String) : Option Nat :=
  let (digits, unit) := match text.toList.getLast? with
    | some 's' => (text.toList.dropLast, 1)
    | some 'm' => (text.toList.dropLast, 60)
    | some 'h' => (text.toList.dropLast, 3600)
    | some 'd' => (text.toList.dropLast, 86400)
    | _ => (text.toList, 1)
  match String.ofList digits with
  | "infinity" | "inf" => some (1000000000 * 1000000000)
  | _ =>
    let whole := digits.takeWhile Char.isDigit
    let rest := digits.drop whole.length
    match rest with
    | [] => if whole.isEmpty then none else some (Decimal.ofDigits whole * unit * 1000000000)
    | '.' :: places =>
      if places.all Char.isDigit && !(whole.isEmpty && places.isEmpty) then
        let places := places.take 9
        let scaled := Decimal.ofDigits places * Nat.pow 10 (9 - places.length)
        some ((Decimal.ofDigits whole * 1000000000 + scaled) * unit)
      else none
    | _ => none

/-- Waits. -/
def sleep (arguments : List String) : Work Nat := do
  let given ← Work.options "" arguments
  if given.operands.isEmpty then Work.misuse 1 "missing operand"
  let mut total := 0
  let mut wrong := false
  for text in given.operands do
    match duration? text with
    | some time => total := total + time
    | none =>
      Work.warn ("invalid time interval " ++ quoted text)
      wrong := true
  if wrong then Work.advise 1
  Work.act (Act.sleep total)
  return 0

/-- The number of a signal. -/
def signal? (text : String) : Option Nat :=
  let text := text.toUpper
  Shell.Signal.ofText? (if text.startsWith "SIG" then (text.drop 3).toString else text)

/-- Runs a program for at most some time. -/
def timeout (arguments : List String) : Work Nat := do
  let given ← (Grammar.plain "k/kill-after: s/signal: v/verbose /foreground /preserve-status"
    false 125).given arguments
  match given.operands with
  | time :: command :: rest =>
    let some time := duration? time | Work.misuse 125 ("invalid time interval " ++ quoted time)
    let signal ← match given.last? "s" with
      | none => pure 15
      | some text => match signal? text with
        | some signal => pure signal
        | none => Work.misuse 125 (quoted text ++ ": invalid signal")
    let setting ← read
    Work.flush
    let outcome ← Work.act do
      let child ← Act.fork (Work.asAct setting (runPlain 125 (command :: rest)))
      let now ← Act.look fun world _ => world.now
      let wake := if time = 0 then none else some (now + time)
      Act.await wake fun world _ => world.hasEnded child
      let inTime ← Act.look fun world _ => world.hasEnded child
      if !inTime then Act.change fun world _ => world.signal child signal
      return (inTime, ← Act.waitFor child false)
    match outcome with
    | (true, some ending) => return ending.status
    | (false, some ending) => return if given.has "preserve-status" then ending.status else if signal = 9 then 137 else 124
    | (_, none) => return 125
  | _ => Work.misuse 125 "missing operand"

end Pkgset.Tool
