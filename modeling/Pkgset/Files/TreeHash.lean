import Pkgset.Files.Disk
import Pkgset.Sha256

/-!
# Hashes of trees

The hash of a tree covers the relative path and kind of every node below its root,
the contents of files and the targets of links, but not the traits of files. Nodes of
excluded names are left out with all that is below them.
-/

namespace Pkgset

/-- Why a tree has no hash: it is not there, or a file cannot be read. -/
inductive TreeHashError where
  | walk (path : String) (cause : FileError)
  | read (path : String) (cause : FileError)
  deriving DecidableEq, Repr

/-- The wording of a tree error. -/
def TreeHashError.message : TreeHashError → String
  | .walk path cause => "failed to walk " ++ path ++ ": " ++ cause.message
  | .read path cause => "failed to read " ++ path ++ ": " ++ cause.message

namespace TreeHash

/-- The relative path of an entry of a folder. -/
def within (folder name : String) : String := if folder.isEmpty then name else folder ++ "/" ++ name

/-- The line of one node. -/
def line (path : String) : Node → String
  | .file content _ => "F:" ++ path ++ ":" ++ Sha256.hex content
  | .folder _ => "D:" ++ path
  | .link target => "L:" ++ path ++ ":" ++ Sha256.hex (Bytes.ofText target)

mutual

/-- The lines of a node and of what it holds. -/
def lines (exclude : List String) (path : String) : Node → List String
  | .file content traits => [line path (.file content traits)]
  | .link target => [line path (.link target)]
  | .folder entries => line path (.folder entries) :: entryLines exclude path entries

/-- The lines of the entries of a folder, in the order of their names. -/
def entryLines (exclude : List String) (folder : String) : List (String × Node) → List String
  | [] => []
  | (name, node) :: rest =>
    (if exclude.contains name then [] else lines exclude (within folder name) node) ++
      entryLines exclude folder rest

end

/-- The lines of what a root holds; a file holds nothing. -/
def rootLines (exclude : List String) : Node → List String
  | .folder entries => entryLines exclude "" entries
  | _ => []

/-- The bytes that are hashed: every line, and a line feed after it. -/
def encode (lines : List String) : Bytes := lines.flatMap fun line => Bytes.ofText line ++ [10]

/-- The hash of a node's tree. -/
def ofNode (exclude : List String) (node : Node) : String := Sha256.hex (encode (rootLines exclude node))

end TreeHash

/-- The hash of the tree that a path leads to, through a link if the path is one. A
    root of an excluded name has no lines. -/
def Disk.treeHash (disk : Disk) (root : String) (exclude : List String) : Except TreeHashError String :=
  match disk.node true root with
  | .error cause => .error (.walk root cause)
  | .ok node =>
    if exclude.contains ((Path.fileName? root).getD root) then .ok (Sha256.hex (TreeHash.encode []))
    else .ok (TreeHash.ofNode exclude node)

end Pkgset
