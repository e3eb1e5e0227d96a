import Pkgset.Compose.Environment

/-!
# The composition machine

The state of a composition: its environments, what is known of each definition,
the default cells, and the threads that compute. A definition is computed at most
once; a thread that needs one in progress waits for it, unless the thread that
computes it waits, directly or through others, for this thread. Then the demand
is an evaluation cycle. A step moves one thread; an interleaving is a list of the
threads that move.
-/

namespace Pkgset

/-- The identity of a thread. -/
abbrev ThreadId := Nat

/-- What is known of a definition or a default: nothing, that a thread is at it, or
    its outcome. -/
inductive Progress where
  | pending
  | running (owner : ThreadId)
  | done (outcome : Outcome)

/-- A default of an input, computed on its first use. -/
structure Cell where
  input : String
  env : EnvId
  body : Demand
  progress : Progress

/-- What a thread goes back to once it has an outcome. -/
inductive Frame where
  /-- Publish the outcome of a definition. -/
  | slot (slot : SlotId)
  /-- Store the outcome of a default. -/
  | cell (cell : CellId)
  /-- Go on with the demands that follow the outcome. -/
  | resume (next : Outcome → Demand)

/-- The computation whose frame this is. -/
def Frame.origin? : Frame → Option Origin
  | .slot id => some (.slot id)
  | .cell id => some id.computation
  | .resume _ => none

/-- What a thread is about to do. -/
inductive Control where
  /-- Meet a demand. -/
  | meet (demand : Demand)
  /-- Enter a definition. -/
  | enter (slot : SlotId)
  /-- Use a default cell. -/
  | fill (cell : CellId)
  /-- Give an outcome to the uppermost frame. -/
  | yield (outcome : Outcome)
  /-- Crash through the frames. -/
  | unwind
  /-- Sleep until the definition is published. -/
  | blocked (slot : SlotId)
  /-- Let other threads run before the demand. -/
  | paused (demand : Demand)

/-- A thread: what it does next, and its frames, the uppermost first. -/
structure Thread where
  control : Control
  frames : List Frame

/-- The record of a wait: the definition, and the thread that computes it. -/
structure Wait where
  slot : SlotId
  owner : ThreadId

/-- What the threads of a composition share. Environments stay in their places, with
    those dropped replaced by `none`, so an identity is a place in the list. -/
structure Machine where
  environments : List (Option Environment)
  slots : SlotId → Progress
  cells : List (CellId × Cell)
  waits : List (ThreadId × Wait)
  journal : List String

namespace Thread

/-- A thread that is about to meet a demand. -/
def start (demand : Demand) : Thread := ⟨.meet demand, []⟩

/-- The thread with something else to do next. -/
def turn (thread : Thread) (control : Control) : Thread := ⟨control, thread.frames⟩

/-- The thread with one more frame and something else to do next. -/
def push (thread : Thread) (frame : Frame) (control : Control) : Thread := ⟨control, frame :: thread.frames⟩

/-- The computation that the thread is in. -/
def origin (thread : Thread) : Origin := (thread.frames.findSome? Frame.origin?).getD .outside

/-- The definitions that the thread is computing, the innermost first. -/
def forcing (thread : Thread) : List SlotId :=
  thread.frames.filterMap fun
    | .slot slot => some slot
    | _ => none

/-- The frames from the innermost one of an environment and a name up to the top,
    the innermost first. -/
def since? (env : EnvId) (name : String) : List SlotId → Option (List SlotId)
  | [] => none
  | slot :: outer =>
    if slot.env = env ∧ slot.name = name then some [slot]
    else (since? env name outer).map (slot :: ·)

/-- The names of those frames, the outermost first. -/
def namesSince? (thread : Thread) (slot : SlotId) : Option (List String) :=
  (since? slot.env slot.name thread.forcing).map fun frames => (frames.map (·.name)).reverse

/-- The chain of a cycle that the thread closes on a definition of its own. -/
def ownChain (thread : Thread) (slot : SlotId) : List String :=
  (thread.namesSince? slot).getD [] ++ [slot.name]

/-- The chain of a cycle that is closed through other threads: the definitions that
    those wait for, and the frames of this thread from the last of them. -/
def sharedChain (thread : Thread) (hops : List SlotId) (slot : SlotId) : List String :=
  match hops.getLast? with
  | none => [slot.name, slot.name]
  | some held =>
    hops.dropLast.map (·.name) ++ (thread.namesSince? held).getD [held.name] ++ [slot.name]

end Thread

namespace Machine

/-- A machine without environments. -/
def empty : Machine := ⟨[], fun _ => .pending, [], [], []⟩

/-- The environment of an identity, unless it was dropped. -/
def environment? (machine : Machine) : EnvId → Option Environment
  | 0 => none
  | place + 1 => (machine.environments[place]?).join

/-- Adds an environment; its identity is the number of environments. -/
def install (machine : Machine) (environment : Environment) : Machine × EnvId :=
  ({ machine with environments := machine.environments ++ [some environment] }, machine.environments.length + 1)

/-- Records what is known of a definition. -/
def setSlot (machine : Machine) (slot : SlotId) (progress : Progress) : Machine :=
  { machine with slots := fun other => if other = slot then progress else machine.slots other }

/-- A default cell. -/
def cell? (machine : Machine) (id : CellId) : Option Cell := machine.cells.lookup id

/-- Records what is known of a default cell. -/
def setCell (machine : Machine) (id : CellId) (progress : Progress) : Machine :=
  { machine with
    cells := machine.cells.map fun entry => if entry.1 = id then (id, { entry.2 with progress }) else entry }

/-- The number of cells that a computation has made. -/
def cellsMade (machine : Machine) (origin : Origin) : Nat := machine.cells.countP (·.1.origin = origin)

/-- Makes a default cell. -/
def allot (machine : Machine) (origin : Origin) (input : String) (view : View) (body : Demand) : Machine × CellId :=
  let id := ⟨origin, machine.cellsMade origin⟩
  ({ machine with cells := machine.cells ++ [(id, ⟨input, view.env, body, .pending⟩)] }, id)

/-! ## Waiting -/

/-- What a thread waits for. -/
def waitOf? (waits : List (ThreadId × Wait)) (id : ThreadId) : Option Wait := waits.lookup id

/-- Follows the waits from a thread: the definitions on the way, if it leads to `me`. -/
def trail (waits : List (ThreadId × Wait)) (me : ThreadId) : Nat → ThreadId → Option (List SlotId)
  | 0, _ => none
  | bound + 1, id =>
    match waitOf? waits id with
    | none => none
    | some wait =>
      if wait.owner = me then some [wait.slot]
      else (trail waits me bound wait.owner).map (wait.slot :: ·)

/-- The cycle that would close if `me` waited for a definition of `owner`. A trail
    is no longer than the table of waits. -/
def closing? (waits : List (ThreadId × Wait)) (me owner : ThreadId) (slot : SlotId) : Option (List SlotId) :=
  (trail waits me (waits.length + 1) owner).map (slot :: ·)

/-- Forgets what a thread waits for. -/
def clearWait (machine : Machine) (id : ThreadId) : Machine :=
  { machine with waits := machine.waits.filter fun entry => entry.1 != id }

/-- Records what a thread waits for. -/
def addWait (machine : Machine) (id : ThreadId) (wait : Wait) : Machine :=
  { machine with waits := (id, wait) :: machine.waits.filter fun entry => entry.1 != id }

/-- Forgets every wait for a definition. -/
def releaseWaits (machine : Machine) (slot : SlotId) : Machine :=
  { machine with waits := machine.waits.filter fun entry => entry.2.slot != slot }

/-- Records the outcome of a definition and wakes those who wait for it. -/
def publish (machine : Machine) (slot : SlotId) (outcome : Outcome) : Machine :=
  (machine.setSlot slot (.done outcome)).releaseWaits slot

/-- The error that a crash leaves in the definitions that it goes through. -/
def crashed (slot : SlotId) : ComposeError := .constructorFailed slot.name "definition panicked"

/-! ## Looking up -/

/-- The identity of the final definition that a view shows for a name. -/
def top? (machine : Machine) (view : View) (name : String) : Option SlotId := do
  let environment ← machine.environment? view.env
  let slot ← environment.top? view.role name
  some ⟨view.env, name, slot.layer⟩

/-- The identity of the latest definition of a name below a layer. -/
def below? (machine : Machine) (env : EnvId) (name : String) (layer : Nat) : Option SlotId := do
  let environment ← machine.environment? env
  let slot ← environment.below? name layer
  some ⟨env, name, slot.layer⟩

/-- What evaluating a definition demands. -/
def definition (machine : Machine) (id : SlotId) : Demand :=
  match (machine.environment? id.env).bind fun environment =>
      (environment.stack id.name).find? (·.layer == id.layer) with
  | some slot => slot.definition.demand ⟨id.env, id.layer, id.name⟩
  | none => .fail (.notFound id.name)

/-! ## Steps

A step takes what the threads share and one thread, and gives both as they are
after the thread has moved. -/

/-- The demand that follows a chain of lazy references from its first one. -/
def follow (reference : LazyRef) (next : Outcome → Demand) : Demand :=
  .force reference fun
    | .ok component => .settle component next
    | .error error => next (.error error)

/-- A thread meets a demand. -/
def meet (machine : Machine) (thread : Thread) : Demand → Machine × Thread
  | .done outcome => (machine, thread.turn (.yield outcome))
  | .panic => (machine, thread.turn .unwind)
  | .get view name next =>
    match machine.top? view name with
    | some slot => (machine, thread.push (.resume next) (.enter slot))
    | none => (machine, thread.turn (.meet (next (.error (.notFound name)))))
  | .prior env name layer next =>
    match machine.below? env name layer with
    | some slot => (machine, thread.push (.resume next) (.enter slot))
    | none => (machine, thread.turn (.meet (next (.error (.notFound name)))))
  | .has view name next => (machine, thread.turn (.meet (next (machine.top? view name).isSome)))
  | .hasPrior env name layer next => (machine, thread.turn (.meet (next (machine.below? env name layer).isSome)))
  | .force (.entry view name) next =>
    match machine.environment? view.env with
    | some _ => (machine, thread.turn (.meet (.get view name next)))
    | none => (machine, thread.turn (.meet (next (.error (.environmentDropped name)))))
  | .force (.ready component) next => (machine, thread.turn (.meet (next (.ok component))))
  | .force (.default _ cell) next => (machine, thread.push (.resume next) (.fill cell))
  | .settle (.lazy reference) next => (machine, thread.turn (.meet (follow reference next)))
  | .settle component next => (machine, thread.turn (.meet (next (.ok component))))
  | .allot input view body next =>
    let (machine, cell) := machine.allot thread.origin input view body
    (machine, thread.turn (.meet (next cell)))
  | .mark label next => ({ machine with journal := machine.journal ++ [label] }, thread.turn (.meet next))
  | .pause next => (machine, thread.turn (.paused next))

/-- A thread enters a definition: it takes the outcome, starts computing, waits, or
    closes a cycle. -/
def enter (machine : Machine) (id : ThreadId) (thread : Thread) (slot : SlotId) : Machine × Thread :=
  match machine.slots slot with
  | .done outcome => (machine, thread.turn (.yield outcome))
  | .pending => (machine.setSlot slot (.running id), thread.push (.slot slot) (.meet (machine.definition slot)))
  | .running owner =>
    if owner = id then
      (machine, thread.turn (.yield (.error (.evaluationCycle slot.name (thread.ownChain slot)))))
    else
      match closing? machine.waits id owner slot with
      | some hops =>
        (machine, thread.turn (.yield (.error (.evaluationCycle slot.name (thread.sharedChain hops slot)))))
      | none => (machine.addWait id ⟨slot, owner⟩, thread.turn (.blocked slot))

/-- What using a default cell for the first time demands. -/
def cellDemand (machine : Machine) (cell : Cell) : Demand :=
  match machine.environment? cell.env with
  | some _ => cell.body
  | none => .fail (.environmentDropped cell.input)

/-- A thread uses a default cell: it takes the outcome or starts computing it. A
    cell in progress holds the thread up, also when the thread itself is at it. -/
def fill (machine : Machine) (id : ThreadId) (thread : Thread) (cellId : CellId) : Machine × Thread :=
  match machine.cell? cellId with
  | none => (machine, thread.turn .unwind)
  | some cell =>
    match cell.progress with
    | .done outcome => (machine, thread.turn (.yield outcome))
    | .running _ => (machine, thread)
    | .pending => (machine.setCell cellId (.running id), thread.push (.cell cellId) (.meet (machine.cellDemand cell)))

/-- An outcome reaches a frame, with the frames below it. -/
def handOver (machine : Machine) (outcome : Outcome) (frames : List Frame) : Frame → Machine × Thread
  | .slot slot => (machine.publish slot outcome, ⟨.yield outcome, frames⟩)
  | .cell cell => (machine.setCell cell (.done outcome), ⟨.yield outcome, frames⟩)
  | .resume next => (machine, ⟨.meet (next outcome), frames⟩)

/-- A crash goes through a frame, with the frames below it. -/
def crash (machine : Machine) (frames : List Frame) : Frame → Machine × Thread
  | .slot slot => (machine.publish slot (.error (crashed slot)), ⟨.unwind, frames⟩)
  | .cell cell => (machine.setCell cell .pending, ⟨.unwind, frames⟩)
  | .resume _ => (machine, ⟨.unwind, frames⟩)

/-- A thread moves. At its end it stays as it is; a blocked one wakes up, with or
    without reason, and enters its definition anew. -/
def step (machine : Machine) (id : ThreadId) (thread : Thread) : Machine × Thread :=
  match thread.control with
  | .meet demand => machine.meet thread demand
  | .enter slot => machine.enter id thread slot
  | .fill cell => machine.fill id thread cell
  | .yield outcome =>
    match thread.frames with
    | [] => (machine, thread)
    | frame :: frames => machine.handOver outcome frames frame
  | .unwind =>
    match thread.frames with
    | [] => (machine, thread)
    | frame :: frames => machine.crash frames frame
  | .blocked slot => (machine.clearWait id, thread.turn (.enter slot))
  | .paused demand => (machine, thread.turn (.meet demand))

/-- How a thread stands. -/
inductive Standing where
  /-- It can move. -/
  | moving
  /-- It waits for a definition or a default in progress. -/
  | waiting
  /-- It has offered its turn. -/
  | resting
  /-- It has computed its demand. -/
  | returned (outcome : Outcome)
  /-- It has crashed. -/
  | crashed

/-- Whether a default cell is in progress. -/
def isFilling (machine : Machine) (cell : CellId) : Bool :=
  match machine.cell? cell with
  | some ⟨_, _, _, .running _⟩ => true
  | _ => false

/-- How a thread stands. One that sleeps can move once its wait is released. -/
def standing (machine : Machine) (id : ThreadId) : Thread → Standing
  | ⟨.yield outcome, []⟩ => .returned outcome
  | ⟨.unwind, []⟩ => .crashed
  | ⟨.blocked _, _⟩ => if (waitOf? machine.waits id).isSome then .waiting else .moving
  | ⟨.fill cell, _⟩ => if machine.isFilling cell then .waiting else .moving
  | ⟨.paused _, _⟩ => .resting
  | _ => .moving

end Machine

/-- A machine and its threads. -/
structure Pool where
  machine : Machine
  threads : ThreadId → Thread

namespace Pool

/-- One thread moves, the others stay as they are. -/
def step (pool : Pool) (id : ThreadId) : Pool :=
  let (machine, thread) := pool.machine.step id (pool.threads id)
  ⟨machine, fun other => if other = id then thread else pool.threads other⟩

/-- The threads of a list move, one after another. -/
def run (pool : Pool) (interleaving : List ThreadId) : Pool := interleaving.foldl step pool

end Pool
end Pkgset
