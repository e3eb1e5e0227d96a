import Pkgset.Files.Disk
import Pkgset.Kernel.Account
import Pkgset.Kernel.Image

/-!
# Disks as worlds

Processes work on a world of inodes, in which a file may have several names or, while
it is open, none. Before they start the world is made from the system's own folders and
a disk; afterwards the disk is made from what the world has become, the system's own
folders apart.
-/

namespace Pkgset.Kernel

namespace World

/-- A world with nothing but a root folder. -/
def empty : World := ⟨#[⟨.folder root [], 0o755, 0, 1⟩], #[], #[], [], 0, 0⟩

/-- Puts an inode under a name of a folder. -/
def attach (world : World) (folder : InodeId) (name : String) (id : InodeId) : World :=
  world.setInode folder fun inode =>
    match inode.content with
    | .folder above entries => { inode with content := .folder above (Dict.insert entries name id) }
    | _ => inode

/-- Adds an inode under a name of a folder. -/
def plant (world : World) (folder : InodeId) (name : String) (content : Content) (mode : Nat) : World × InodeId :=
  let (world, id) := world.addInode ⟨content, mode, 0, 1⟩
  (world.attach folder name id, id)

/-- The folder of a name in a folder, made if it is not there. -/
def plantFolder (world : World) (folder : InodeId) (name : String) : World × InodeId :=
  match Dict.get? (world.inode folder).entries name with
  | some id => (world, id)
  | none => world.plant folder name (.folder folder []) 0o755

/-- The folder that names lead to from a folder, with those that are missing made. -/
def plantFolders (world : World) (folder : InodeId) : List String → World × InodeId
  | [] => (world, folder)
  | name :: rest =>
    let (world, id) := world.plantFolder folder name
    plantFolders world id rest

end World

/-- The system's own folders, which no process changes for good. -/
def systemFolders : List String :=
  ["bin", "boot", "dev", "etc", "lib", "lib64", "media", "mnt", "opt", "proc", "run", "sbin", "srv", "sys", "usr"]

/-- The folders that are there for everyone. -/
def commonFolders : List String := ["home", "root", "tmp", "var"]

/-- A world of the system's own folders, with the files of programs. -/
def systemWorld (programs : List (String × ByteArray)) : World :=
  let links := ["bin", "lib", "lib64", "sbin"]
  let world := (systemFolders ++ commonFolders).foldl (fun world name =>
    if links.contains name then (world.plant World.root name (.link ("usr/" ++ name)) 0o777).1
    else (world.plantFolder World.root name).1) World.empty
  let nested := [["etc"], ["usr", "bin"], ["usr", "games"], ["usr", "include"], ["usr", "lib"], ["usr", "lib64"],
    ["usr", "local", "bin"], ["usr", "local", "lib"], ["usr", "sbin"], ["usr", "share"], ["var", "lib"],
    ["var", "log"], ["var", "tmp"]]
  let world := nested.foldl (fun world path => (world.plantFolders World.root path).1) world
  let (world, devices) := world.plantFolder World.root "dev"
  let world := [("null", Device.null), ("zero", .zero), ("full", .full), ("random", .zero), ("urandom", .zero)].foldl
    (fun world (name, device) => (world.plant devices name (.device device) 0o666).1) world
  let world := [("fd", "/proc/self/fd"), ("stdin", "/proc/self/fd/0"), ("stdout", "/proc/self/fd/1"),
    ("stderr", "/proc/self/fd/2")].foldl
    (fun world (name, target) => (world.plant devices name (.link target) 0o777).1) world
  let (world, settings) := world.plantFolder World.root "etc"
  let users := Raw.toArray (String.join (Account.all.map Account.line))
  let (world, _) := world.plant settings "passwd" (.file users) 0o644
  let (world, folder) := world.plantFolders World.root ["usr", "bin"]
  programs.foldl (fun world (name, content) => (world.plant folder name (.file content) 0o755).1) world

namespace Snapshot

/-- A world that is being made, and the inodes of the files with several names. -/
structure Planting where
  world : World
  twins : List (Nat × InodeId)

mutual

/-- Adds a node of a disk under a name of a folder. -/
def plant (planting : Planting) (folder : InodeId) (name : String) : Node → Planting
  | .link target => { planting with world := (planting.world.plant folder name (.link (Raw.ofText target)) 0o777).1 }
  | .folder entries =>
    let (world, id) := planting.world.plantFolder folder name
    plantAll { planting with world } id entries
  | .file content traits =>
    match planting.twins.lookup traits.twin with
    | some id =>
      let world := planting.world.attach folder name id
      { planting with world := world.setInode id fun inode => { inode with names := inode.names + 1 } }
    | none =>
      let (world, id) := planting.world.plant folder name (.file ⟨content.toArray⟩) traits.mode
      let world := world.setInode id fun inode => { inode with modified := traits.modified }
      ⟨world, if traits.twin = 0 then planting.twins else (traits.twin, id) :: planting.twins⟩

/-- Adds the entries of a folder of a disk to a folder. -/
def plantAll (planting : Planting) (folder : InodeId) : List (String × Node) → Planting
  | [] => planting
  | (name, node) :: rest => plantAll (plant planting folder (Raw.ofText name) node) folder rest

end

/-- The world of a disk and the system's own folders. -/
def ofDisk (system : World) (disk : Disk) : World :=
  match disk.root with
  | .folder entries =>
    (plantAll ⟨system, []⟩ World.root (entries.filter fun (name, _) => !systemFolders.contains name)).world
  | _ => system

mutual

/-- The node that an inode is, within a number of levels. Devices and pipes are none. -/
def node? (world : World) : Nat → InodeId → Option Node
  | 0, _ => none
  | levels + 1, id =>
    let inode := world.inode id
    match inode.content with
    | .link target => some (.link (Raw.toText target))
    | .file bytes => some (.file bytes.toList ⟨inode.mode, inode.modified, if inode.names = 1 then 0 else id⟩)
    | .folder _ entries => some (.folder (entriesOf world levels entries))
    | _ => none

/-- The entries of a folder that are nodes. -/
def entriesOf (world : World) : Nat → List (String × InodeId) → List (String × Node)
  | 0, _ => []
  | levels + 1, entries => entries.foldl (fun found (name, id) =>
    match node? world levels id with
    | some node => Dict.insert found (Raw.toText name) node
    | none => found) []

end

/-- The disk that a world holds, the system's own folders apart. -/
def toDisk (world : World) : Disk :=
  let entries := (world.inode World.root).entries.filter fun (name, _) => !systemFolders.contains name
  ⟨.folder (entriesOf world (2 * world.inodes.size + 2) entries)⟩

end Snapshot
end Pkgset.Kernel
