import Pkgset.Shell.Locate
import Pkgset.Shell.Reader
import Pkgset.Shell.Redirection

/-!
# Texts that are run

A text is read and run command by command, so that what one command does may decide
how the next is read.
-/

namespace Pkgset.Shell
open Kernel

namespace Evaluation

/-- What is said of a text that breaks the rules. The text may have a label. -/
def refuse (label? : Option String) (text : String) (fault : Fault) : Run Unit := do
  modify fun session => { session with line := fault.line }
  let session ← get
  if session.isRich then
    let place := session.origin?.getD session.name ++ ": " ++ label?.elim "" (· ++ ": ") ++ "line " ++
      decimal fault.line ++ ": "
    Run.complainRaw (place ++ fault.message ++ "\n")
    if (fault.message.splitOn "near").length > 1 then
      Run.complainRaw (place ++ "\x60" ++ ((text.splitOn "\n")[fault.line - 1]?).getD "" ++ "'\n")
  else Run.complain fault.message
  Run.setStatus 2

/-- Reads commands one after another and runs each before the next is read. The status
    is that of the last one. -/
def eachCommand (label? : Option String) (text : String) (run : Command → Run Unit) : Nat → Source → Nat → Run Nat
  | 0, _, status => return status
  | rounds + 1, source, status => do
    let session ← get
    let aliases := if session.isRich && !session.has '8' then [] else session.aliases
    let groups := session.offers "extglob"
    match Reader.complete.run { source with aliases, number := session.number, texts := [], groups } with
    | .error fault =>
      refuse label? text fault
      throw .failure
    | .ok (none, _) => return status
    | .ok (some command, source) =>
      modify fun session =>
        { session with texts := source.texts ++ session.texts, number := source.number, reading := source.line }
      match command with
      | .nothing => eachCommand label? text run rounds source status
      | command =>
        try run command
        catch stop => if stop = .abandon then pure () else throw stop
        eachCommand label? text run rounds source (← get).status

/-- Runs the commands of a text. -/
def runText (run : Command → Run Unit) (text : String) (label? : Option String := none) : Run Nat := do
  eachCommand label? text run (text.length + 2) (.ofText text.toList 1 0 [] (← get).dialect) 0

/-- The file of a text that a shell reads: a name without separators is looked for. -/
def textFile (name : String) : Run String := do
  if name.contains '/' then return name
  let session ← get
  match ← Run.act (Locate.firstFile (Locate.candidates (Locate.searchPath session) name)) with
  | some path => return path
  | none =>
    if session.isRich then return name else Run.fail (name ++ ": not found")

/-- The text of a file. -/
def readText (path : String) : Run String := do
  match ← Run.act (Act.readFile path) with
  | .ok bytes => return Raw.ofArray bytes
  | .error .isFolder => do
    if (← get).isRich then Run.fail (path ++ ": is a directory") else return ""
  | .error cause =>
    if (← get).isRich then Run.fail (path ++ ": " ++ cause.message)
    else Run.fail ("cannot open " ++ path ++ ": " ++ Redirection.wording cause "No such file")

/-- Runs something up to its end or to where it is left. -/
def returning (action : Run Unit) : Run Unit := do
  try action
  catch stop =>
    match stop with
    | .giveBack _ => return ()
    | other => throw other

/-- Runs a text up to its end or to where it is left, and gives the status. -/
def returningStatus (action : Run Nat) : Run Nat := do
  try action
  catch stop =>
    match stop with
    | .giveBack _ => return (← get).status
    | other => throw other

/-- Runs the action of a signal. The status is not changed by it, unless the action
    chooses one for the function that it leaves. -/
def heed (run : Command → Run Unit) (action : String) : Run Unit := do
  let session ← get
  let status := session.trapStatus?.getD session.status
  set { session with trapStatus? := some status }
  let restore : Run Unit := modify fun now => { now with status, trapStatus? := session.trapStatus? }
  try
    discard (runText run action (some "trap"))
    restore
  catch stop =>
    match stop with
    | .giveBack true => modify fun now => { now with trapStatus? := session.trapStatus? }
    | .exit | .failure => pure ()
    | _ => restore
    throw stop

end Evaluation
end Pkgset.Shell
