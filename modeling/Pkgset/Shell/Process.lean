import Pkgset.Shell.Builtin.Table
import Pkgset.Shell.Redirection

/-!
# Loops and processes

What runs in a shell may be left early, and passes through loops on its way. A shell
runs programs in processes of their own, and copies of itself.
-/

namespace Pkgset.Shell
open Kernel

namespace Evaluation

/-- How often a loop may be repeated. -/
def roundLimit : Nat := 1000000000

/-- Ends a process that has gone too deep. -/
def collapse {α : Type} : Run α := Run.act (Act.finish (.killed 11))

/-! ## Loops -/

/-- How a part of a loop has come out: with a result, or with a jump to its end or to
    its next round. -/
inductive Round (α : Type) where
  | done (result : α)
  | left
  | again

/-- Runs a part of a loop. A jump that is meant for more loops goes on. -/
def inLoop {α : Type} (action : Run α) : Run (Round α) := do
  try
    return .done (← action)
  catch stop =>
    match stop with
    | .leave (n + 2) => throw (.leave (n + 1))
    | .leave _ => return .left
    | .again (n + 2) => throw (.again (n + 1))
    | .again _ => return .again
    | other => throw other

/-- Repeats a body while a condition holds, and gives the status of the last round. -/
def repeated (condition : Run Bool) (body : Run Unit) : Nat → Nat → Run Nat
  | 0, _ => collapse
  | rounds + 1, status => do
    match ← inLoop condition with
    | .left => return status
    | .again => repeated condition body rounds status
    | .done false => return status
    | .done true =>
      match ← inLoop body with
      | .left => return (← get).status
      | _ => repeated condition body rounds (← get).status

/-- Runs a body for every one of some texts, and gives the status of the last round. -/
def forEach (body : String → Run Unit) : List String → Nat → Run Nat
  | [], status => return status
  | text :: rest, _ => do
    match ← inLoop (body text) with
    | .left => return (← get).status
    | _ => forEach body rest (← get).status

/-- Does something in one more loop. -/
def loop {α : Type} (action : Run α) : Run α :=
  Run.within (fun session => { session with loops := session.loops + 1 })
    (fun session => { session with loops := session.loops - 1 }) action

/-! ## Processes -/

/-- Lets a stream be known by a descriptor that other programs do not see. -/
def attach (stream : StreamId) : Act Nat := fun id next => .act fun world =>
  let place := world.freeDescriptor id Redirection.keptFrom
  (world.connect id place (some ⟨stream, true⟩), next place)

/-- Makes a pipe, and gives the descriptors of its end to read and its end to write. -/
def pipe : Act (Nat × Nat) := do
  let (input, output) ← Act.makePipe
  let input ← attach input
  let output ← attach output
  return (input, output)

/-- Starts a child that goes on like the shell but does something else. -/
def forkRun (session : Session) (action : Run Nat) : Act ProcessId := Act.fork do
  let (result, session) ← (action.run).run session
  match result with
  | .ok status => return status % 256
  | .error _ => return session.status % 256

/-- Whether something is done when signals come. -/
def hasTraps (session : Session) : Bool := session.traps.any (·.2 != "")

/-- Forgets what a copy of a shell does not do: it heeds no signals and has no jobs. -/
def becomeCopy : Run Unit := do
  modify fun session => { session with traps := session.traps.filter (·.2 = ""), jobs := [], reading := 1 }
  Run.act (Act.change fun world id => world.setRecord id fun record => { record with caught := [] })

/-- Lets a copy of a shell go on behind another command that is not waited for. -/
def detach (first : Bool) : Run Unit := do
  Builtin.arrange 2 (some "")
  Builtin.arrange 3 (some "")
  if first then
    if let .ok descriptor ← Run.act (Act.openFile "/dev/null" .input 0) then
      Run.act (Redirection.move descriptor 0)

/-- The status of a program that cannot be run. -/
def statusOf (cause : Cause) : Nat :=
  match cause with
  | .tooManyLinks | .nameTooLong | .notFound | .notFolder => 127
  | _ => 126

/-- The environment of a program; a rich shell adds its path. -/
def environmentFor (session : Session) (path : String) : List String :=
  if session.isRich then session.environment ++ ["_=" ++ path] else session.environment

/-- Runs a program in the place of the shell, or tells why it cannot be run. -/
def replaceBy (programs : Programs) (name path : String) (arguments : List String) : Run Unit := do
  let session ← get
  let cause ← Run.act (Act.become programs ⟨path, name :: arguments, environmentFor session path⟩)
  Run.complain (name ++ ": " ++ (if session.isRich then cause.message else Locate.wording cause))
  Run.setStatus (statusOf cause)

/-- Runs a program, in the place of the shell or in a process of its own. -/
def launch (programs : Programs) (exits : Bool) (name path : String) (arguments : List String) : Run Unit := do
  let session ← get
  if exits && !hasTraps session then
    replaceBy programs name path arguments
    throw .exit
  else
    let id ← Run.act <| forkRun session do
      replaceBy programs name path arguments
      return (← get).status
    Run.setStatus (← Builtin.await id)

/-- The status after a redirection that does not work. -/
def redirectStatus (session : Session) : Nat := if session.isRich then 1 else 2

/-- Makes changes of descriptors that last as long as the process. -/
def redirectFor (changes : List Change) : Run Unit := do
  let (_, worked) ← Redirection.makeAll changes []
  if !worked then
    Run.setStatus (redirectStatus (← get))
    throw .failure

/-- The least descriptor for a pipe that a program gets by its path. -/
def lentFrom : Nat := 63

/-- Closes what programs have got by their paths. -/
def giveBackLent : Run Unit := do
  let session ← get
  for descriptor in session.lent do Run.act (Act.close descriptor)
  if !session.lent.isEmpty then set { session with lent := [] }

/-- Looks for the program of a command before a process of its own runs it. -/
def remember (command : Command) : Run Unit := do
  match command with
  | .simple _ _ (word :: _) _ =>
    match Word.plain? word with
    | some name =>
      let session ← get
      let known := Builtin.isBuiltin session name || (session.functions.lookup name).isSome
      if Reader.isName name && !known && !session.isRich then discard (Locate.remembered name)
    | none => return ()
  | _ => return ()

/-- Runs a program by its name. -/
def program (programs : Programs) (exits : Bool) (path? : Option String) (name : String) (arguments : List String) : Run Unit := do
  let located ← if name.contains '/' then pure (Except.ok name) else
    match path? with
    | some path => Run.act (Locate.program path name)
    | none => Locate.remembered name
  match located with
  | .ok path => launch programs exits name path arguments
  | .error cause =>
    Run.complain (name ++ ": " ++ (if (← get).isRich then "command " else "") ++ Locate.wording cause)
    Run.setStatus 127

end Evaluation
end Pkgset.Shell
