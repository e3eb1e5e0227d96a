import Pkgset.Compose.Machine

/-!
# Evaluating demands

A single demand is evaluated by one thread that moves until it is at its end.
Several demands are evaluated by one thread each, under a fixed rule of turns: a
thread keeps its turn until it pauses, waits or ends, and when no thread can move,
the next of those that paused goes on. A bound on the number of moves makes
evaluation total; a demand that never ends exhausts every bound.
-/

namespace Pkgset

/-- Why evaluating a demand ends without a component. -/
inductive Failure where
  | error (cause : ComposeError)
  | crash

/-- How evaluating a demand ends. -/
abbrev Ending := Except Failure Component

/-- The ending that an outcome is. -/
def Ending.ofOutcome : Outcome → Ending
  | .ok component => .ok component
  | .error cause => .error (.error cause)

/-- The number of moves granted to an evaluation. -/
def moveBound : Nat := 3000000

namespace Machine

/-- Moves a thread to its end, within a number of moves. A thread alone gets its turn
    back at once when it offers it. -/
def finish (id : ThreadId) : Nat → Machine → Thread → Option (Machine × Ending)
  | 0, _, _ => none
  | bound + 1, machine, thread =>
    match machine.standing id thread with
    | .returned outcome => some (machine, .ofOutcome outcome)
    | .crashed => some (machine, .error .crash)
    | .waiting => none
    | _ =>
      let (machine, thread) := machine.step id thread
      finish id bound machine thread

/-- Evaluates one demand. -/
def evaluate (machine : Machine) (demand : Demand) : Option (Machine × Ending) :=
  machine.finish 0 moveBound (Thread.start demand)

/-- Binds inputs to their sources, with a new cell for each default. -/
def bindAll (view : View) : List (String × Source) → Machine → Machine × Dict Binding
  | [], machine => (machine, [])
  | (input, source) :: rest, machine =>
    let (machine, binding) := match source with
      | .entry name => (machine, Binding.entry name)
      | .ready component => (machine, .ready component)
      | .default body =>
        let (machine, cell) := machine.allot .outside input view (body view)
        (machine, .default cell)
    let (machine, others) := bindAll view rest machine
    (machine, Dict.insert others input binding)

/-- Injects the inputs of a call site from outside of any computation. -/
def inject (machine : Machine) (site : CallSite) (view : View) : Except ComposeError (Machine × Inputs) := do
  let sources ← site.sources fun name => (machine.top? view name).isSome
  let (machine, bindings) := bindAll view sources machine
  .ok (machine, ⟨site.descriptor.name, view, bindings⟩)

/-- Adds labels to the journal. -/
def note (machine : Machine) (labels : List String) : Machine :=
  { machine with journal := machine.journal ++ labels }

/-- Takes the journal out of the machine. -/
def takeJournal (machine : Machine) : List String × Machine := (machine.journal, { machine with journal := [] })

/-- Evaluates the entries of names in turn, up to the first failure. -/
def forceAll (view : View) : List String → Machine → Option (Machine × Except Failure (Dict Component))
  | [], machine => some (machine, .ok [])
  | name :: rest, machine => do
    match ← machine.evaluate (.get view name .done) with
    | (machine, .error failure) => some (machine, .error failure)
    | (machine, .ok component) =>
      match ← forceAll view rest machine with
      | (machine, .ok others) => some (machine, .ok (Dict.insert others name component))
      | (machine, .error failure) => some (machine, .error failure)

end Machine

/-- Threads that take turns: all of them, the queue of those that rest, and the one
    whose turn it is. -/
structure Rota where
  machine : Machine
  threads : List Thread
  queue : List ThreadId
  turn : ThreadId

namespace Rota

/-- One thread for each demand, all of them at rest in their order. -/
def start (machine : Machine) (demands : List Demand) : Rota :=
  ⟨machine, demands.map fun demand => ⟨.paused demand, []⟩, List.range demands.length, 0⟩

/-- Whether a thread can move and is not queued. -/
def canMove (rota : Rota) (id : ThreadId) : Bool :=
  match rota.threads[id]? with
  | none => false
  | some thread =>
    match rota.machine.standing id thread with
    | .moving => true
    | _ => false

/-- Moves a thread; if it rests then, it goes to the end of the queue. -/
def move (rota : Rota) (id : ThreadId) : Rota :=
  match rota.threads[id]? with
  | none => rota
  | some thread =>
    let (machine, thread) := rota.machine.step id thread
    let queue := match machine.standing id thread with
      | .resting => rota.queue ++ [id]
      | _ => rota.queue
    ⟨machine, rota.threads.set id thread, queue, id⟩

/-- The thread that moves next: the one whose turn it is, else the first that can. -/
def next? (rota : Rota) : Option ThreadId :=
  if rota.canMove rota.turn then some rota.turn
  else (List.range rota.threads.length).find? rota.canMove

/-- The ending of each thread, if all have ended. -/
def endings? (rota : Rota) : Option (List Ending) :=
  (rota.threads.zipIdx).mapM fun (thread, id) =>
    match rota.machine.standing id thread with
    | .returned outcome => some (.ofOutcome outcome)
    | .crashed => some (.error .crash)
    | _ => none

/-- Moves threads until none can move, within a number of moves. -/
def finish : Nat → Rota → Option (Machine × List Ending)
  | 0, _ => none
  | bound + 1, rota =>
    match rota.next?, rota.queue with
    | some id, _ => finish bound (rota.move id)
    | none, id :: rest => finish bound ({ rota with queue := rest }.move id)
    | none, [] => do
      let endings ← rota.endings?
      some (rota.machine, endings)

end Rota

/-- Evaluates demands side by side. -/
def Machine.evaluateTogether (machine : Machine) (demands : List Demand) : Option (Machine × List Ending) :=
  (Rota.start machine demands).finish moveBound

end Pkgset
