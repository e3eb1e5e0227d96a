import Pkgset.Shell.Builtin.Options
import Pkgset.Shell.Condition
import Pkgset.Shell.Expansion

/-!
# Builtin commands that decide what happens next
-/

namespace Pkgset.Shell.Builtin
open Kernel

/-- Succeeds. -/
def true_ (_ : List String) : Run Nat := return 0

/-- Fails. -/
def false_ (_ : List String) : Run Nat := return 1

/-- Leaves the shell. Without a number the status stays, or is the one from before the
    action of a signal. -/
def exit_ (arguments : List String) : Run Nat := do
  match arguments with
  | [] => modify fun session => { session with status := session.trapStatus?.getD session.status }
  | text :: _ =>
    let status ← number text
    Run.setStatus status
  throw .exit

/-- Leaves a function or a text. -/
def return_ (arguments : List String) : Run Nat := do
  let session ← get
  if session.isRich && session.calls = 0 then
    Run.complain "can only \x60return' from a function or sourced script"
    return 2
  match arguments with
  | [] => throw (.giveBack false)
  | text :: _ =>
    let status ← number text
    Run.setStatus (if session.isRich then status % 256 else status)
    throw (.giveBack true)

/-- The number of loops that an argument tells; there may be fewer. -/
def loopCount (arguments : List String) : Run (Option Nat) := do
  let session ← get
  let count ← match arguments with
    | [] => pure 1
    | text :: _ => do
      let n ← number text
      if n = 0 then
        if session.isRich then Run.failWith 1 (text ++ ": loop count out of range")
        else Run.fail ("Illegal number: " ++ text)
      pure n
  if session.loops = 0 then
    if session.isRich then Run.complain ("only meaningful in a \x60for', \x60while', or \x60until' loop")
    return none
  Run.setStatus 0
  return some (min count session.loops)

/-- Leaves loops. -/
def break_ (arguments : List String) : Run Nat := do
  match ← loopCount arguments with
  | none => return 0
  | some count => throw (.leave count)

/-- Goes on with the next round of a loop. -/
def continue_ (arguments : List String) : Run Nat := do
  match ← loopCount arguments with
  | none => return 0
  | some count => throw (.again count)

/-- Evaluates expressions, and succeeds if the last is not zero. -/
def let_ (arguments : List String) : Run Nat := do
  if arguments.isEmpty then Run.failWith 1 "expression expected"
  let mut last : Int := 0
  for text in arguments do
    let n ← Expansion.sum text
    last := n
  return if last = 0 then 1 else 0

/-- Tells where a function was called from; outside of functions there is no such place. -/
def caller (_ : List String) : Run Nat := do
  let session ← get
  if session.calls = 0 then return 1
  else
    discard (Run.emit (decimal session.line ++ " NULL\n"))
    return 0

/-! ## Aliases -/

/-- The line that lists an alias. -/
def aliasLine (rich : Bool) (name text : String) : String :=
  if rich then "alias " ++ name ++ "=" ++ Expansion.singleQuoted text ++ "\n"
  else name ++ "=" ++ Session.quoted text ++ "\n"

/-- Notes aliases, or lists them. -/
def alias_ (arguments : List String) : Run Nat := do
  let session ← get
  let rich := session.isRich
  let (_, arguments) ← if rich then options [('p', false)] arguments else pure ([], arguments)
  if arguments.isEmpty then
    let entries := if rich then session.aliases.mergeSort fun a b => !decide (b.1 < a.1)
      else Session.inBuckets session.aliases
    Run.emit (String.join (entries.map fun (name, text) => aliasLine rich name text))
  else
    let mut status := 0
    for argument in arguments do
      match assignment? argument with
      | some ("", _) | none =>
        match (← get).aliases.lookup argument with
        | some text => discard (Run.emit (aliasLine rich argument text))
        | none =>
          if rich then Run.complain (argument ++ ": not found")
          else Run.complainRaw ("alias: " ++ argument ++ " not found\n")
          status := 1
      | some (name, text) =>
        modify fun session => { session with aliases := Session.put session.aliases name text }
    return status

/-- Forgets aliases. -/
def unalias (arguments : List String) : Run Nat := do
  let (found, rest) ← options [('a', false)] arguments
  if !found.isEmpty then
    modify fun session => { session with aliases := [] }
    return 0
  let mut status := 0
  for name in rest do
    let session ← get
    if (session.aliases.lookup name).isSome then
      set { session with aliases := session.aliases.filter (·.1 != name) }
    else
      if session.isRich then Run.complain (name ++ ": not found")
      else Run.complainRaw ("unalias: " ++ name ++ " not found\n")
      status := 1
  return status

/-! ## Conditions -/

/-- What a rich shell says of conditions without a meaning. -/
def wording : Condition.Wording where
  number := (· ++ ": integer expression expected")
  unaryExpected := fun first _ => first ++ ": unary operator expected"
  binaryExpected := (· ++ ": binary operator expected")
  missing := fun _ => "argument expected"
  extra := fun _ => "too many arguments"
  closing := "\x60)' expected"

/-- Tests a condition. -/
def test (arguments : List String) : Run Nat := do
  let condition := if (← get).isRich then Condition.counted wording arguments else Condition.holds arguments
  match ← Run.act condition.run with
  | .ok holds => return if holds then 0 else 1
  | .error message =>
    Run.complain message
    return 2

/-- Tests a condition between brackets. -/
def bracket (arguments : List String) : Run Nat := do
  if arguments.getLast? = some "]" then test arguments.dropLast
  else
    Run.complain (if (← get).isRich then "missing \x60]'" else "missing ]")
    return 2

/-- Takes a job up again, which no shell without a terminal can do. -/
def resume (_ : List String) : Run Nat := do
  if (← get).isRich then Run.failWith 1 "no job control" else Run.fail "No current job"

end Pkgset.Shell.Builtin
