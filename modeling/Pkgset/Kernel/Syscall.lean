import Pkgset.Kernel.World
import Pkgset.Path
import Pkgset.Text.Decimal

/-!
# Calls that work on files

A call changes the world or fails with a cause. A path leads from the root or from the
folder of a process through folders and links; its last link is followed or not, as the
call wants. Who calls may do everything but run a file that nobody may run.
-/

namespace Pkgset.Kernel

/-- What asks something of the kernel for a process. -/
abbrev Syscall := ExceptT Cause (StateM World)

/-- What the last step of a path is. -/
inductive Final where
  | entry | here | above | root
  deriving DecidableEq, Repr

/-- Where a path leads: the folder of its last step, the name there, what is found under
    it, and whether the path asks for a folder by a separator at its end. -/
structure Spot where
  folder : InodeId
  name : String
  found : Option InodeId
  final : Final
  wantsFolder : Bool

namespace World

/-- The most links that a path may go through. -/
def linkLimit : Nat := 40

/-- The most bytes of one name. -/
def nameLimit : Nat := 255

/-- The most bytes of a path. -/
def pathLimit : Nat := 4095

/-- The names on a path. -/
def steps (path : String) : List String := (Path.pieces path).filter (· ≠ "")

/-- Where steps lead from a folder. -/
def walkFrom (world : World) (follow : Bool) (links : Nat) (here : InodeId) (rest : List String) (wants : Bool) :
    Except Cause Spot :=
  match rest with
  | [] => .ok ⟨here, ".", some here, .root, wants⟩
  | name :: rest =>
    match (world.inode here).content with
    | .folder above entries =>
      if name = "." then
        if rest.isEmpty then .ok ⟨here, name, some here, .here, wants⟩ else walkFrom world follow links here rest wants
      else if name = ".." then
        if rest.isEmpty then .ok ⟨above, name, some above, .above, wants⟩
        else walkFrom world follow links above rest wants
      else if nameLimit < name.length then .error .nameTooLong
      else match Dict.get? entries name with
        | none => if rest.isEmpty then .ok ⟨here, name, none, .entry, wants⟩ else .error .notFound
        | some id =>
          match (world.inode id).content with
          | .link target =>
            if rest.isEmpty && !follow && !wants then .ok ⟨here, name, some id, .entry, wants⟩
            else match links with
              | 0 => .error .tooManyLinks
              | links + 1 =>
                walkFrom world follow links (if Path.isAbsolute target then root else here) (steps target ++ rest)
                  (wants || (rest.isEmpty && target.endsWith "/"))
          | .folder _ _ =>
            if rest.isEmpty then .ok ⟨here, name, some id, .entry, wants⟩
            else walkFrom world follow links id rest wants
          | _ => if rest.isEmpty && !wants then .ok ⟨here, name, some id, .entry, wants⟩ else .error .notFolder
    | _ => .error .notFolder
termination_by (links, rest.length)

/-- Where a path leads for a process. -/
def walk (world : World) (id : ProcessId) (follow : Bool) (path : String) : Except Cause Spot :=
  if path.isEmpty then .error .notFound
  else if pathLimit < path.length then .error .nameTooLong
  else
    let start := if Path.isAbsolute path then root else ((world.record? id).elim root (·.folder))
    world.walkFrom follow linkLimit start (steps path) (path.endsWith "/")

/-- The inode that a path leads to for a process. -/
def find (world : World) (id : ProcessId) (follow : Bool) (path : String) : Except Cause InodeId := do
  match (← world.walk id follow path).found with
  | some found => .ok found
  | none => .error .notFound

/-- The path from the root to a folder, within a number of steps upwards. -/
def pathWithin (world : World) : Nat → InodeId → List String → Option (List String)
  | 0, _, _ => none
  | bound + 1, id, below =>
    match (world.inode id).content with
    | .folder above _ =>
      if id = root then some below
      else do
        let (name, _) ← (world.inode above).entries.find? (·.2 = id)
        pathWithin world bound above (name :: below)
    | _ => none

/-- The path from the root to a folder, if there still is one. -/
def pathOf? (world : World) (id : InodeId) : Option String :=
  (world.pathWithin (world.inodes.size + 1) id []).map fun names => "/" ++ "/".intercalate names

/-- The descriptor that a path stands for, if it is one of those that do. -/
def descriptorOf? (path : String) : Option Nat :=
  let number? (digits : List Char) : Option Nat :=
    if digits.isEmpty || !digits.all Char.isDigit then none else some (Decimal.ofDigits digits)
  match path with
  | "/dev/stdin" => some 0
  | "/dev/stdout" => some 1
  | "/dev/stderr" => some 2
  | _ =>
    if path.startsWith "/dev/fd/" then number? (path.toList.drop 8)
    else if path.startsWith "/proc/self/fd/" then number? (path.toList.drop 14)
    else none

end World

/-- How a file is opened. -/
structure Manner where
  reads : Bool
  writes : Bool
  creates : Bool
  truncates : Bool
  appends : Bool
  exclusive : Bool
  deriving DecidableEq, Repr

namespace Manner

/-- To read what is there. -/
def input : Manner := ⟨true, false, false, false, false, false⟩

/-- To write in place of what is there. -/
def output : Manner := ⟨false, true, true, true, false, false⟩

/-- To write where nothing is. -/
def fresh : Manner := ⟨false, true, true, false, false, true⟩

/-- To write at the end of what is there. -/
def addition : Manner := ⟨false, true, true, false, true, false⟩

/-- To read and write what is there. -/
def update : Manner := ⟨true, true, true, false, false, false⟩

end Manner

namespace Syscall

/-- What the kernel knows of the process that asks. -/
def record (id : ProcessId) : Syscall Record := do
  match (← get).record? id with
  | some record => return record
  | none => throw .noProcess

/-- Where a path leads. -/
def walk (id : ProcessId) (follow : Bool) (path : String) : Syscall Spot := fun world => (world.walk id follow path, world)

/-- The inode that a path leads to. -/
def find (id : ProcessId) (follow : Bool) (path : String) : Syscall InodeId := fun world =>
  (world.find id follow path, world)

/-- The inode that a path leads to, and what is known of it. A path may stand for a
    descriptor. -/
def inspect (id : ProcessId) (follow : Bool) (path : String) : Syscall (InodeId × Inode) := fun world =>
  match (World.descriptorOf? path).bind (world.stream? id) with
  | some ⟨.inode found, _, _, _, _⟩ => (.ok (found, world.inode found), world)
  | some _ => (.ok (world.inodes.size, ⟨.channel world.pipes.size, 0o600, world.now, 1⟩), world)
  | none => ((world.find id follow path).map fun found => (found, world.inode found), world)

/-- Puts an inode under a free name of a folder that still has names. -/
def enter (folder : InodeId) (name : String) (id : InodeId) : Syscall Unit := do
  let world ← get
  if (world.inode folder).names = 0 then throw .notFound
  let now := world.now
  set (world.setInode folder fun inode =>
    match inode.content with
    | .folder above entries =>
      { inode with content := .folder above (Dict.insert entries name id), modified := now }
    | _ => inode)
  modify fun world => world.setInode id fun inode =>
    match inode.content with
    | .folder _ entries => { inode with content := .folder folder entries, names := 1 }
    | _ => { inode with names := inode.names + 1 }

/-- Takes a name out of a folder. -/
def leave (folder : InodeId) (name : String) (id : InodeId) : Syscall Unit :=
  modify fun world =>
    let now := world.now
    let world := world.setInode folder fun inode =>
      match inode.content with
      | .folder above entries => { inode with content := .folder above (Dict.erase entries name), modified := now }
      | _ => inode
    world.setInode id fun inode => { inode with names := inode.names - 1 }

/-- Adds an inode under a free name of a folder. -/
def create (folder : InodeId) (name : String) (content : Content) (mode : Nat) : Syscall InodeId := do
  if ((← get).inode folder).names = 0 then throw .notFound
  let id ← modifyGet fun world =>
    let (world, id) := world.addInode ⟨content, mode, world.now, 0⟩
    (id, world)
  enter folder name id
  return id

/-- The permission bits that a process leaves to what it makes. -/
def permitted (id : ProcessId) (mode : Nat) : Syscall Nat := do
  return mode &&& (0o7777 ^^^ (← record id).mask)

/-- The stream that an inode is opened as. -/
def streamOf (inode : InodeId) (how : Manner) : Syscall Stream := do
  let world ← get
  match (world.inode inode).content with
  | .folder _ _ => if how.writes || how.creates then throw .isFolder
  | .file _ =>
    if how.truncates then
      let now := world.now
      modify fun world => world.setInode inode fun inode =>
        { inode with content := .file ByteArray.empty, modified := now }
  | .channel pipe => return ⟨.pipe pipe, 0, how.reads, how.writes, false⟩
  | .link _ => throw .tooManyLinks
  | .device _ => pure ()
  return ⟨.inode inode, 0, how.reads, how.writes, how.appends⟩

/-- Opens a file as a stream. -/
def openStream (id : ProcessId) (path : String) (how : Manner) (mode : Nat) : Syscall StreamId := do
  let add (stream : Stream) : Syscall StreamId := modifyGet fun world =>
    let (world, stream) := world.addStream stream
    (stream, world)
  if let some descriptor := World.descriptorOf? path then
    match (← get).stream? id descriptor with
    | some ⟨.inode inode, _, _, _, _⟩ => return ← add (← streamOf inode how)
    | some stream => return ← add { stream with reads := how.reads, writes := how.writes }
    | none => throw .notFound
  let spot ← walk id (!how.exclusive) path
  match spot.found with
  | some inode =>
    if how.exclusive then throw .present
    add (← streamOf inode how)
  | none =>
    if !how.creates then throw .notFound
    if spot.wantsFolder then throw .isFolder
    let inode ← create spot.folder spot.name (.file ByteArray.empty) (← permitted id mode)
    add ⟨.inode inode, 0, how.reads, how.writes, how.appends⟩

/-- Makes a folder. -/
def makeFolder (id : ProcessId) (path : String) (mode : Nat) : Syscall Unit := do
  let spot ← walk id false path
  if spot.found.isSome then throw .present
  discard (create spot.folder spot.name (.folder spot.folder []) (← permitted id mode))

/-- Makes a link. -/
def makeLink (id : ProcessId) (path target : String) : Syscall Unit := do
  if target.isEmpty then throw .notFound
  if World.pathLimit < target.length then throw .nameTooLong
  let spot ← walk id false path
  if spot.found.isSome then throw .present
  if spot.wantsFolder then throw .notFound
  discard (create spot.folder spot.name (.link target) 0o777)

/-- Makes a pipe with a name. -/
def makeChannel (id : ProcessId) (path : String) (mode : Nat) : Syscall Unit := do
  let spot ← walk id false path
  if spot.found.isSome then throw .present
  if spot.wantsFolder then throw .notFound
  let pipe ← modifyGet fun world =>
    let (world, pipe) := world.addPipe
    (pipe, world)
  discard (create spot.folder spot.name (.channel pipe) (← permitted id mode))

/-- Gives an inode that is no folder one more name. -/
def addName (id : ProcessId) (follow : Bool) (source path : String) : Syscall Unit := do
  let inode ← find id follow source
  let spot ← walk id false path
  if spot.found.isSome then throw .present
  if spot.wantsFolder then throw .notFound
  if ((← get).inode inode).isFolder then throw .notPermitted
  enter spot.folder spot.name inode

/-- Removes a name that is no folder's. -/
def removeName (id : ProcessId) (path : String) : Syscall Unit := do
  let spot ← walk id false path
  let some inode := spot.found | throw .notFound
  if ((← get).inode inode).isFolder then throw .isFolder
  leave spot.folder spot.name inode

/-- Removes a folder that holds nothing. -/
def removeFolder (id : ProcessId) (path : String) : Syscall Unit := do
  let spot ← walk id false path
  match spot.final with
  | .here => throw .invalid
  | .above => throw .notEmpty
  | .root => throw .busy
  | .entry =>
    let some inode := spot.found | throw .notFound
    let found := (← get).inode inode
    if !found.isFolder then throw .notFolder
    if !found.entries.isEmpty then throw .notEmpty
    leave spot.folder spot.name inode

/-- Whether a folder is another one or above it, within a number of steps upwards. -/
def isAbove (world : World) (upper : InodeId) : Nat → InodeId → Bool
  | 0, _ => false
  | bound + 1, lower =>
    if lower = upper then true
    else match (world.inode lower).content with
      | .folder above _ => if above = lower then false else isAbove world upper bound above
      | _ => false

/-- Gives an inode another name in place of its old one; what had the name is lost. -/
def rename (id : ProcessId) (source target : String) : Syscall Unit := do
  let old ← walk id false source
  let new ← walk id false target
  if old.final != .entry || new.final != .entry then throw .busy
  let some inode := old.found | throw .notFound
  let world ← get
  let isFolder := (world.inode inode).isFolder
  if old.wantsFolder && !isFolder then throw .notFolder
  if new.wantsFolder && !isFolder then throw .notFolder
  if isFolder && isAbove world inode (world.inodes.size + 1) new.folder then throw .invalid
  match new.found with
  | some other =>
    if other = inode then return ()
    let found := world.inode other
    if isFolder && !found.isFolder then throw .notFolder
    if !isFolder && found.isFolder then throw .isFolder
    if !found.entries.isEmpty then throw .notEmpty
    leave new.folder new.name other
  | none => if (world.inode new.folder).names = 0 then throw .notFound
  leave old.folder old.name inode
  enter new.folder new.name inode

/-- Sets the permission bits of what a path leads to. -/
def setMode (id : ProcessId) (path : String) (mode : Nat) : Syscall Unit := do
  let inode ← find id true path
  modify fun world => world.setInode inode fun found => { found with mode }

/-- Sets the time of the last change of what a path leads to. -/
def setTime (id : ProcessId) (follow : Bool) (path : String) (time : Int) : Syscall Unit := do
  let inode ← find id follow path
  modify fun world => world.setInode inode fun found => { found with modified := time }

/-- Cuts a file, or fills it with zeros, to a size. -/
def resize (id : ProcessId) (path : String) (size : Nat) : Syscall Unit := do
  let inode ← find id true path
  match ((← get).inode inode).content with
  | .file _ =>
    let now := (← get).now
    modify fun world => world.setInode inode fun found =>
      let bytes := found.bytes
      let filled := (List.range (size - bytes.size)).foldl (fun bytes _ => bytes.push 0) (bytes.extract 0 size)
      { found with content := .file filled, modified := now }
  | .folder _ _ => throw .isFolder
  | _ => throw .invalid

/-- Makes a folder the one that a process is in. -/
def enterFolder (id : ProcessId) (path : String) : Syscall Unit := do
  let inode ← find id true path
  if !((← get).inode inode).isFolder then throw .notFolder
  modify fun world => world.setRecord id fun record => { record with folder := inode }

/-- The path of the folder that a process is in. -/
def currentFolder (id : ProcessId) : Syscall String := do
  match (← get).pathOf? (← record id).folder with
  | some path => return path
  | none => throw .notFound

end Syscall
end Pkgset.Kernel
