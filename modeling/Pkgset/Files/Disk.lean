import Pkgset.Files.Node
import Pkgset.Path

/-!
# Disks and what can be done to them

Operations name nodes by paths. A path leads from the root through folders and
links; its last link is followed or not, as the operation says. An operation that
fails leaves the disk as it was, but making several folders may make some of them.
-/

namespace Pkgset

/-- Why an operation on files fails. -/
inductive FileError where
  | notFound | occupied | notFolder | isFolder | notEmpty | invalid | nameTooLong | tooManyLinks | hasNul | notText
  deriving DecidableEq, Repr

/-- The wording of a file error. -/
def FileError.message : FileError → String
  | .notFound => "No such file or directory (os error 2)"
  | .occupied => "File exists (os error 17)"
  | .notFolder => "Not a directory (os error 20)"
  | .isFolder => "Is a directory (os error 21)"
  | .notEmpty => "Directory not empty (os error 39)"
  | .invalid => "Invalid argument (os error 22)"
  | .nameTooLong => "File name too long (os error 36)"
  | .tooManyLinks => "Too many levels of symbolic links (os error 40)"
  | .hasNul => "file name contained an unexpected NUL byte"
  | .notText => "stream did not contain valid UTF-8"

/-- The files that operations work on. -/
structure Disk where
  root : Node

namespace Disk

/-- The disk without files. -/
def empty : Disk := ⟨.empty⟩

/-- Where a path leads: to a node, or to a name that is free in a folder. -/
inductive Target where
  | found (place : Place)
  | vacant (folder : Place) (name : String)

/-- The most links that a path may go through. -/
def linkLimit : Nat := 40

/-- The most bytes of one name. -/
def nameLimit : Nat := 255

/-- The most bytes of a path. -/
def pathLimit : Nat := 4095

/-- The steps that a path takes; a path that ends in a separator ends in a step that
    stays, which only a folder allows. -/
def steps (path : String) : List String :=
  (Path.pieces path).filter (· ≠ "") ++ (if path.endsWith "/" then ["."] else [])

/-- Where steps lead from a place. -/
def walk (root : Node) (follow : Bool) (links : Nat) (here : Place) (rest : List String) : Except FileError Target :=
  match rest with
  | [] => .ok (.found here)
  | name :: rest =>
    match root.at? here with
    | some (.folder entries) =>
      if name = "." then walk root follow links here rest
      else if name = ".." then walk root follow links here.dropLast rest
      else if nameLimit < name.utf8ByteSize then .error .nameTooLong
      else match Dict.get? entries name with
        | none => if rest.isEmpty then .ok (.vacant here name) else .error .notFound
        | some (.link target) =>
          if rest.isEmpty && !follow then .ok (.found (here ++ [name]))
          else match links with
            | 0 => .error .tooManyLinks
            | links + 1 => walk root follow links (if Path.isAbsolute target then [] else here) (steps target ++ rest)
        | some _ => walk root follow links (here ++ [name]) rest
    | _ => .error .notFolder
termination_by (links, rest.length)

/-- Where a path leads. -/
def target (disk : Disk) (follow : Bool) (path : String) : Except FileError Target :=
  if path.any (· = '\x00') then .error .hasNul
  else if path.isEmpty then .error .notFound
  else if pathLimit < path.utf8ByteSize then .error .nameTooLong
  else walk disk.root follow linkLimit [] (steps path)

/-- The place of the node that a path leads to. -/
def place (disk : Disk) (follow : Bool) (path : String) : Except FileError Place := do
  match ← disk.target follow path with
  | .found place => .ok place
  | .vacant _ _ => .error .notFound

/-- The node that a path leads to. -/
def node (disk : Disk) (follow : Bool) (path : String) : Except FileError Node := do
  match disk.root.at? (← disk.place follow path) with
  | some node => .ok node
  | none => .error .notFound

/-- Whether a path leads to a node. -/
def leadsToNode (disk : Disk) (path : String) : Bool := (disk.node true path).toBool

/-- Whether a path leads to a folder. -/
def isFolder (disk : Disk) (path : String) : Bool :=
  match disk.node true path with
  | .ok node => node.isFolder
  | .error _ => false

/-- The content of a file. -/
def read (disk : Disk) (path : String) : Except FileError Bytes := do
  match ← disk.node true path with
  | .file content _ => .ok content
  | .folder _ => .error .isFolder
  | .link _ => .error .tooManyLinks

/-- The content of a file that holds text. -/
def readText (disk : Disk) (path : String) : Except FileError String := do
  match Bytes.toText? (← disk.read path) with
  | some text => .ok text
  | none => .error .notText

/-- The disk with another node at a place. -/
def put (disk : Disk) (place : Place) (node : Node) : Disk := ⟨disk.root.replace place (some node)⟩

/-- Writes a file, in place of an earlier one. -/
def write (disk : Disk) (path : String) (content : Bytes) : Except FileError Disk := do
  match ← disk.target true path with
  | .vacant folder name => .ok (disk.put (folder ++ [name]) (.file content .ordinary))
  | .found place =>
    match disk.root.at? place with
    | some (.file _ traits) => .ok (disk.put place (.file content traits))
    | _ => .error .isFolder

/-- Puts a new node where nothing is. -/
def create (disk : Disk) (path : String) (node : Node) : Except FileError Disk := do
  match ← disk.target false path with
  | .vacant folder name => .ok (disk.put (folder ++ [name]) node)
  | .found _ => .error .occupied

/-- Makes a link. -/
def makeLink (disk : Disk) (path target : String) : Except FileError Disk := disk.create path (.link target)

/-- Makes one folder; its path may end in a separator. -/
def makeFolder (disk : Disk) (path : String) : Except FileError Disk :=
  disk.create (String.ofList (path.toList.reverse.dropWhile (· = '/')).reverse) .empty

/-- Takes a failure to make a folder back if the folder is there. -/
def orFolder (disk : Disk) (path : String) (result : Except FileError Disk) : Disk × Except FileError Unit :=
  match result with
  | .ok larger => (larger, .ok ())
  | .error error => (disk, if disk.isFolder path then .ok () else .error error)

/-- Makes a folder and the folders above it, within a number of levels. -/
def makeFoldersWithin : Nat → String → Disk → Disk × Except FileError Unit
  | 0, _, disk => (disk, .error .notFound)
  | levels + 1, path, disk =>
    if path.isEmpty then (disk, .ok ())
    else match disk.makeFolder path, Path.parent? path with
      | .error .notFound, some parent =>
        match makeFoldersWithin levels parent disk with
        | (disk, .ok ()) => disk.orFolder path (disk.makeFolder path)
        | failure => failure
      | result, _ => disk.orFolder path result

/-- Makes a folder and the folders above it that are missing. -/
def makeFolders (disk : Disk) (path : String) : Disk × Except FileError Unit :=
  makeFoldersWithin ((Path.components path).length + 1) path disk

/-- Removes a folder with all that it holds; a link is removed itself. What a folder
    holds goes first, so a path whose last step names no entry leaves it empty. -/
def removeTree (disk : Disk) (path : String) : Disk × Except FileError Unit :=
  match disk.place false path with
  | .error error => (disk, .error error)
  | .ok place =>
    match disk.root.at? place, ((Path.pieces path).filter (· ≠ "")).getLast? with
    | some (.file _ _), _ => (disk, .error .notFolder)
    | some (.folder _), some "." => (disk.put place .empty, .error .invalid)
    | some (.folder _), some ".." => (disk.put place .empty, .error .notEmpty)
    | _, _ => (⟨disk.root.replace place none⟩, .ok ())

/-- Removes a file or link. -/
def removeFile (disk : Disk) (path : String) : Except FileError Disk := do
  let place ← disk.place false path
  match disk.root.at? place with
  | some (.folder _) => .error .isFolder
  | _ => .ok ⟨disk.root.replace place none⟩

end Disk
end Pkgset
