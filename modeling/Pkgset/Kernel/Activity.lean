import Pkgset.Kernel.Syscall

/-!
# Activities

What a process does is an activity: changes of the world, one after another, with
points at which it waits for the world or splits in two. Nothing happens before a
machine runs the activity, and other processes may move between any two changes.
-/

namespace Pkgset.Kernel

/-- What a process does from some point on. -/
inductive Activity where
  /-- It ends. -/
  | ended (ending : Exit)
  /-- It changes the world. -/
  | act (change : World → World × Activity)
  /-- It waits until the world is ready or, if a time is given, until then. -/
  | await (wake : Option Int) (ready : World → Bool) (next : Activity)
  /-- It starts a child and goes on, knowing its number. -/
  | fork (child : ProcessId → Activity) (next : ProcessId → Activity)

/-- A computation that a process carries out: it knows the number of the process and
    what follows. -/
def Act (α : Type) : Type := ProcessId → (α → Activity) → Activity

namespace Act
variable {α : Type}

instance : Monad Act where
  pure a := fun _ next => next a
  bind action f := fun id next => action id fun a => f a id next

/-- The number of the process. -/
def self : Act ProcessId := fun id next => next id

/-- Looks at the world. -/
def look (f : World → ProcessId → α) : Act α := fun id next =>
  .act fun world =>
    let answer := f world id
    (world, next answer)

/-- Changes the world. -/
def change (f : World → ProcessId → World) : Act Unit := fun id next => .act fun world => (f world id, next ())

/-- Makes a call. -/
def call (f : ProcessId → Syscall α) : Act (Except Cause α) := fun id next =>
  .act fun world =>
    let (result, world) := (f id).run.run world
    (world, next result)

/-- Ends the process. -/
def finish (ending : Exit) : Act α := fun _ _ => .ended ending

/-- Waits until the world is ready or a time has come. -/
def await (wake : Option Int) (ready : World → ProcessId → Bool) : Act Unit := fun id next =>
  .await wake (fun world => ready world id) (next ())

/-- Starts a child that ends with the status of an action. -/
def fork (child : Act Nat) : Act ProcessId := fun _ next =>
  .fork (fun id => child id fun status => .ended (.exited status)) next

/-! ## Signals and children -/

/-- Whether a signal waits for the process to look at it. -/
def hasPending (world : World) (id : ProcessId) : Bool := (world.record? id).any (!·.pending.isEmpty)

/-- Takes the signals that wait for the process. -/
def takeSignals : Act (List Nat) := fun id next =>
  .act fun world =>
    match (world.record? id).elim [] (·.pending) with
    | [] => (world, next [])
    | pending => (world.setRecord id fun record => { record with pending := [] }, next pending)

/-- Waits for the end of a child and forgets it; a signal that is caught may come first. -/
def waitFor (child : ProcessId) (interruptible : Bool) : Act (Option Exit) := fun id next =>
  .await none (fun world => world.hasEnded child || (interruptible && hasPending world id)) <| .act fun world =>
    match world.record? child with
    | none => (world, next none)
    | some record =>
      match record.ending with
      | none => (world, next none)
      | some ending => (world.reap child, next (some ending))

/-- Waits for some time, in nanoseconds; a signal that is caught may come first. -/
def sleep (time : Nat) : Act Unit := fun id next =>
  .act fun world => (world, .await (some (world.now + time)) (hasPending · id) (next ()))

/-! ## Reading and writing -/

/-- The most bytes that wait in a pipe. -/
def pipeLimit : Nat := 65536

/-- Whether reading from a descriptor would not have to wait. -/
def canRead (descriptor : Nat) (world : World) (id : ProcessId) : Bool :=
  match world.stream? id descriptor with
  | some ⟨.pipe pipe, _, _, _, _⟩ => world.pipes[pipe]?.any (·.size != 0) || !world.hasWriter pipe
  | _ => true

/-- Reads at most some bytes from a descriptor; none are left at the end. -/
def readNow (descriptor count : Nat) (id : ProcessId) : Syscall ByteArray := do
  let world ← get
  let some place := world.descriptor? id descriptor | throw .badDescriptor
  let some stream := world.streams[place]? | throw .badDescriptor
  if !stream.reads then throw .badDescriptor
  match stream.source with
  | .outside => return ByteArray.empty
  | .pipe pipe =>
    let content := world.pipes[pipe]?.getD ByteArray.empty
    modify fun world => { world with pipes := world.pipes.setIfInBounds pipe (content.extract count content.size) }
    return content.extract 0 count
  | .inode inode =>
    match (world.inode inode).content with
    | .file bytes =>
      let part := bytes.extract stream.position (stream.position + count)
      modify fun world =>
        { world with
          streams := world.streams.modify place fun stream =>
            { stream with position := stream.position + part.size } }
      return part
    | .folder _ _ => throw .isFolder
    | .device .null => return ByteArray.empty
    | .device _ => return ⟨Array.replicate count 0⟩
    | _ => throw .invalid

/-- Reads at most some bytes from a descriptor, once there are some. -/
def read (descriptor count : Nat) : Act (Except Cause ByteArray) := do
  await none (canRead descriptor)
  call (readNow descriptor count)

/-- Whether writing to a descriptor would not have to wait. -/
def canWrite (descriptor : Nat) (world : World) (id : ProcessId) : Bool :=
  match world.stream? id descriptor with
  | some ⟨.pipe pipe, _, _, _, _⟩ => world.pipes[pipe]?.any (·.size < pipeLimit) || !world.hasReader pipe
  | _ => true

/-- Bytes with others put over them from a position on. -/
def overwrite (content : ByteArray) (position : Nat) (bytes : ByteArray) : ByteArray :=
  if position = content.size then content ++ bytes
  else
    let before := (List.range (position - content.size)).foldl (fun bytes _ => bytes.push 0)
      (content.extract 0 position)
    before ++ bytes ++ content.extract (position + bytes.size) content.size

/-- Writes some of the bytes to a descriptor, and tells how many. -/
def writeNow (descriptor : Nat) (bytes : ByteArray) (id : ProcessId) : Syscall Nat := do
  let world ← get
  let some place := world.descriptor? id descriptor | throw .badDescriptor
  let some stream := world.streams[place]? | throw .badDescriptor
  if !stream.writes then throw .badDescriptor
  match stream.source with
  | .outside => return bytes.size
  | .pipe pipe =>
    if !world.hasReader pipe then
      modify fun world => world.signal id 13
      throw .brokenPipe
    let count := min bytes.size (pipeLimit - (world.pipes[pipe]?.elim 0 (·.size)))
    modify fun world => { world with pipes := world.pipes.modify pipe (· ++ bytes.extract 0 count) }
    return count
  | .inode inode =>
    let found := world.inode inode
    match found.content with
    | .file _ =>
      let start := if stream.appends then found.size else stream.position
      modify fun world =>
        let now := world.now
        let world := world.setInode inode fun found =>
          match found with
          | ⟨.file content, mode, _, names⟩ => ⟨.file (overwrite content start bytes), mode, now, names⟩
          | other => other
        { world with
          streams := world.streams.modify place fun stream => { stream with position := start + bytes.size } }
      return bytes.size
    | .device .full => throw .noSpace
    | .device _ => return bytes.size
    | _ => throw .badDescriptor

/-- Writes bytes to a descriptor, within a number of parts. -/
def writeParts (descriptor : Nat) : Nat → ByteArray → Act (Except Cause Unit)
  | 0, _ => return .ok ()
  | bound + 1, bytes => do
    if bytes.isEmpty then return .ok ()
    await none (canWrite descriptor)
    match ← call (writeNow descriptor bytes) with
    | .error cause => return .error cause
    | .ok count =>
      if count = bytes.size then return .ok ()
      else writeParts descriptor bound (bytes.extract count bytes.size)

/-- Writes bytes to a descriptor, waiting where there is no room. -/
def write (descriptor : Nat) (bytes : ByteArray) : Act (Except Cause Unit) :=
  writeParts descriptor (bytes.size + 1) bytes

/-! ## Descriptors -/

/-- Lets a descriptor lead to a stream, or nowhere. -/
def connect (descriptor : Nat) (opened : Option Opened) : Act Unit :=
  change fun world id => world.connect id descriptor opened

/-- Opens a file under the least free descriptor. A pipe with a name waits for its
    other end. -/
def openFile (path : String) (how : Manner) (mode : Nat) : Act (Except Cause Nat) := do
  match ← call (Syscall.openStream · path how mode) with
  | .error cause => return .error cause
  | .ok stream =>
    let descriptor ← fun id next => .act fun world =>
      let descriptor := world.freeDescriptor id 0
      (world.connect id descriptor (some ⟨stream, false⟩), next descriptor)
    await none fun world _ =>
      match world.streams[stream]? with
      | some ⟨.pipe pipe, _, true, false, _⟩ => world.hasWriter pipe || world.pipes[pipe]?.any (·.size != 0)
      | some ⟨.pipe pipe, _, false, true, _⟩ => world.hasReader pipe
      | _ => true
    return .ok descriptor

/-- Closes a descriptor. -/
def close (descriptor : Nat) : Act Unit := connect descriptor none

/-- Makes a pipe, and gives the streams of its end to read and its end to write. -/
def makePipe : Act (StreamId × StreamId) := fun _ next => .act fun world =>
  let (world, pipe) := world.addPipe
  let (world, input) := world.addStream ⟨.pipe pipe, 0, true, false, false⟩
  let (world, output) := world.addStream ⟨.pipe pipe, 0, false, true, false⟩
  (world, next (input, output))

/-- Reads what is left of a descriptor, within a number of parts. -/
def readParts (descriptor : Nat) : Nat → ByteArray → Act (Except Cause ByteArray)
  | 0, found => return .ok found
  | bound + 1, found => do
    match ← read descriptor pipeLimit with
    | .error cause => return .error cause
    | .ok part => if part.isEmpty then return .ok found else readParts descriptor bound (found ++ part)

/-- The most parts that anything is read in. -/
def partLimit : Nat := 100000

/-- Reads all that is left of a descriptor. -/
def readAll (descriptor : Nat) : Act (Except Cause ByteArray) := readParts descriptor partLimit ByteArray.empty

/-- Reads all of a file. -/
def readFile (path : String) : Act (Except Cause ByteArray) := do
  match ← openFile path .input 0 with
  | .error cause => return .error cause
  | .ok descriptor =>
    let content ← readAll descriptor
    close descriptor
    return content

end Act
end Pkgset.Kernel
