import Pkgset.Text.Dict

/-!
# The world of processes

What processes share: the tree of files, the open streams, the pipes between them, and
the record that the kernel keeps of each. Names and paths are raw texts.
-/

namespace Pkgset.Kernel

/-! ## Why calls to the kernel fail

Every call that fails has one cause, and every cause has one wording, which programs
put at the end of their messages.
-/

/-- Why a call fails. -/
inductive Cause where
  | notPermitted | notFound | noProcess | interrupted | failedDevice | listTooLong | notExecutable | badDescriptor
  | noChild | wouldBlock | denied | busy | present | crossDevice | notFolder | isFolder | invalid | textBusy
  | noSpace | notSeekable | brokenPipe | nameTooLong | notEmpty | tooManyLinks | notSupported | noDevice
  deriving DecidableEq, Repr

/-- The wording of a cause. -/
def Cause.message : Cause → String
  | .notPermitted => "Operation not permitted"
  | .notFound => "No such file or directory"
  | .noProcess => "No such process"
  | .interrupted => "Interrupted system call"
  | .failedDevice => "Input/output error"
  | .listTooLong => "Argument list too long"
  | .notExecutable => "Exec format error"
  | .badDescriptor => "Bad file descriptor"
  | .noChild => "No child processes"
  | .wouldBlock => "Resource temporarily unavailable"
  | .denied => "Permission denied"
  | .busy => "Device or resource busy"
  | .present => "File exists"
  | .crossDevice => "Invalid cross-device link"
  | .notFolder => "Not a directory"
  | .isFolder => "Is a directory"
  | .invalid => "Invalid argument"
  | .textBusy => "Text file busy"
  | .noSpace => "No space left on device"
  | .notSeekable => "Illegal seek"
  | .brokenPipe => "Broken pipe"
  | .nameTooLong => "File name too long"
  | .notEmpty => "Directory not empty"
  | .tooManyLinks => "Too many levels of symbolic links"
  | .notSupported => "Operation not supported"
  | .noDevice => "No such device or address"

/-! ## Processes and what they share -/

/-- The place of an inode in the world. -/
abbrev InodeId := Nat

/-- The place of a stream in the world. -/
abbrev StreamId := Nat

/-- The place of a pipe in the world. -/
abbrev PipeId := Nat

/-- The number of a process. -/
abbrev ProcessId := Nat

/-- A file that is no store of bytes. -/
inductive Device where
  /-- It takes everything and holds nothing. -/
  | null
  /-- It holds zeros without end. -/
  | zero
  /-- It has no space left. -/
  | full
  deriving DecidableEq, Repr

/-- What an inode is. -/
inductive Content where
  | file (bytes : ByteArray)
  | folder (above : InodeId) (entries : Dict InodeId)
  | link (target : String)
  | device (device : Device)
  /-- A pipe with a name. -/
  | channel (pipe : PipeId)

/-- A file, folder or link with its permission bits, the time of its last change in
    nanoseconds, and how many names it has. -/
structure Inode where
  content : Content
  mode : Nat
  modified : Int
  names : Nat

instance : Inhabited Inode := ⟨⟨.file ByteArray.empty, 0, 0, 0⟩⟩

namespace Inode

/-- Whether an inode is a folder. -/
def isFolder (inode : Inode) : Bool :=
  match inode.content with
  | .folder _ _ => true
  | _ => false

/-- Whether an inode is a file of bytes. -/
def isFile (inode : Inode) : Bool :=
  match inode.content with
  | .file _ => true
  | _ => false

/-- Whether an inode is a link. -/
def isLink (inode : Inode) : Bool :=
  match inode.content with
  | .link _ => true
  | _ => false

/-- The entries of a folder. -/
def entries (inode : Inode) : Dict InodeId :=
  match inode.content with
  | .folder _ entries => entries
  | _ => []

/-- The bytes of a file. -/
def bytes (inode : Inode) : ByteArray :=
  match inode.content with
  | .file bytes => bytes
  | _ => ByteArray.empty

/-- The number of bytes that an inode is said to have. -/
def size (inode : Inode) : Nat :=
  match inode.content with
  | .file bytes => bytes.size
  | .folder _ _ => 4096
  | .link target => target.length
  | _ => 0

/-- Whether someone may run an inode. -/
def isExecutable (inode : Inode) : Bool := inode.mode &&& 0o111 != 0

end Inode

/-- What a stream reads from and writes to. -/
inductive Origin where
  | inode (id : InodeId)
  | pipe (id : PipeId)
  /-- Whoever has started the first process: it gives nothing and takes everything. -/
  | outside
  deriving DecidableEq, Repr

/-- An open file. All descriptors that lead to it share its position. -/
structure Stream where
  source : Origin
  position : Nat
  reads : Bool
  writes : Bool
  appends : Bool

/-- What a descriptor leads to, and whether it is closed when another program starts. -/
structure Opened where
  stream : StreamId
  closesOnExec : Bool

/-- How a process has ended. -/
inductive Exit where
  | exited (status : Nat)
  | killed (signal : Nat)
  deriving DecidableEq, Repr

/-- The status that a shell gives to an ending. -/
def Exit.status : Exit → Nat
  | .exited status => status
  | .killed signal => 128 + signal

/-- What the kernel knows of a process. -/
structure Record where
  parent : ProcessId
  descriptors : List (Nat × Opened)
  folder : InodeId
  mask : Nat
  ignored : List Nat
  caught : List Nat
  pending : List Nat
  ending : Option Exit

/-- What processes share. The root folder is the first inode. -/
structure World where
  inodes : Array Inode
  streams : Array Stream
  pipes : Array ByteArray
  records : List (ProcessId × Record)
  processes : Nat
  now : Int

namespace World

/-- The inode at a place. -/
def inode (world : World) (id : InodeId) : Inode := world.inodes[id]?.getD default

/-- The root folder. -/
def root : InodeId := 0

/-- Changes an inode. -/
def setInode (world : World) (id : InodeId) (f : Inode → Inode) : World :=
  { world with inodes := world.inodes.modify id f }

/-- Adds an inode. -/
def addInode (world : World) (inode : Inode) : World × InodeId :=
  let id := world.inodes.size
  ({ world with inodes := world.inodes.push inode }, id)

/-- The record of a process. -/
def record? (world : World) (id : ProcessId) : Option Record := world.records.lookup id

/-- Changes the record of a process. -/
def setRecord (world : World) (id : ProcessId) (f : Record → Record) : World :=
  { world with
    records := world.records.map fun (other, record) => (other, if other = id then f record else record) }

/-! ## Descriptors -/

/-- The stream that a descriptor of a process leads to. -/
def descriptor? (world : World) (id : ProcessId) (descriptor : Nat) : Option StreamId :=
  ((world.record? id).bind (·.descriptors.lookup descriptor)).map (·.stream)

/-- The stream at a place. -/
def stream? (world : World) (id : ProcessId) (descriptor : Nat) : Option Stream :=
  (world.descriptor? id descriptor).bind (world.streams[·]?)

/-- Lets a descriptor lead to a stream, or nowhere. -/
def connect (world : World) (id : ProcessId) (descriptor : Nat) (opened : Option Opened) : World :=
  world.setRecord id fun record =>
    let others := record.descriptors.filter (·.1 != descriptor)
    { record with descriptors := (opened.map fun found => (descriptor, found)).toList ++ others }

/-- The least number from a bound on that is no descriptor of a process. -/
def freeDescriptor (world : World) (id : ProcessId) (least : Nat) : Nat :=
  let used := ((world.record? id).elim [] (·.descriptors)).map (·.1)
  ((List.range (used.length + 1)).find? fun n => !used.contains (least + n)).getD used.length + least

/-- Adds a stream. -/
def addStream (world : World) (stream : Stream) : World × StreamId :=
  let id := world.streams.size
  ({ world with streams := world.streams.push stream }, id)

/-- Adds an empty pipe. -/
def addPipe (world : World) : World × PipeId :=
  let id := world.pipes.size
  ({ world with pipes := world.pipes.push ByteArray.empty }, id)

/-- Moves the position of a descriptor's stream back, if it has one. -/
def setBack (world : World) (id : ProcessId) (descriptor count : Nat) : World :=
  match world.descriptor? id descriptor with
  | some place =>
    { world with streams := world.streams.modify place fun stream => { stream with position := stream.position - count } }
  | none => world

/-- Whether some living process has a stream that passes a test. -/
def holds (world : World) (test : Stream → Bool) : Bool :=
  world.records.any fun (_, record) =>
    record.ending.isNone && record.descriptors.any fun (_, opened) => world.streams[opened.stream]?.any test

/-- Whether a pipe can still be written to. -/
def hasWriter (world : World) (pipe : PipeId) : Bool :=
  world.holds fun stream => stream.source = .pipe pipe && stream.writes

/-- Whether a pipe can still be read from. -/
def hasReader (world : World) (pipe : PipeId) : Bool :=
  world.holds fun stream => stream.source = .pipe pipe && stream.reads

/-! ## Processes and signals -/

/-- Ends a process. What it had open is closed. -/
def finish (world : World) (id : ProcessId) (ending : Exit) : World :=
  world.setRecord id fun record => { record with ending := some ending, descriptors := [], pending := [] }

/-- Whether a process has ended. -/
def hasEnded (world : World) (id : ProcessId) : Bool :=
  match world.record? id with
  | some record => record.ending.isSome
  | none => true

/-- The signals that do nothing to a process that does not heed them. -/
def harmless : List Nat := [0, 17, 18, 19, 20, 21, 22, 23, 28]

/-- The signals that no process can ignore or catch. -/
def absolute : List Nat := [9, 19]

/-- Sends a signal to a process: it is dropped, kept until the process looks at it, or
    ends the process. -/
def signal (world : World) (id : ProcessId) (signal : Nat) : World :=
  match world.record? id with
  | none => world
  | some record =>
    if record.ending.isSome then world
    else if record.ignored.contains signal && !absolute.contains signal then world
    else if record.caught.contains signal && !absolute.contains signal then
      world.setRecord id fun record => { record with pending := record.pending.filter (· != signal) ++ [signal] }
    else if harmless.contains signal then world
    else world.finish id (.killed signal)

/-- Adds the record of a child, which has open what its parent has. -/
def fork (world : World) (parent : ProcessId) : World × ProcessId :=
  let id := world.processes + 1
  match world.record? parent with
  | none => (world, id)
  | some record =>
    ({ world with
        processes := id
        records := world.records ++ [(id, { record with parent, pending := [], ending := none })] }, id)

/-- Forgets a process that has ended. -/
def reap (world : World) (id : ProcessId) : World :=
  { world with records := world.records.filter (·.1 != id) }

/-- What becomes of a process when another program starts in it. -/
def renew (world : World) (id : ProcessId) : World :=
  world.setRecord id fun record =>
    { record with descriptors := record.descriptors.filter (!·.2.closesOnExec), caught := [] }

end World
end Pkgset.Kernel
