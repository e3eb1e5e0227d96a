import Pkgset.Text.Dict
import Pkgset.Bytes

/-!
# Files and folders

A disk is a tree of folders, files and symbolic links. A place is the list of the
names that lead to a node from the root; places never go through links.
-/

namespace Pkgset

/-- What is known of a file beside its content: its permission bits, the time of its
    last change in nanoseconds, and a number that it shares with the other names of the
    same file, or zero. -/
structure Traits where
  mode : Nat
  modified : Int
  twin : Nat
  deriving DecidableEq, Repr

/-- The traits of a file that anyone may read and its owner may write. -/
def Traits.ordinary : Traits := ⟨0o644, 0, 0⟩

/-- The traits of a file that anyone may run. -/
def Traits.executable : Traits := ⟨0o755, 0, 0⟩

/-- A file with its content, a folder with its entries by name, or a link. -/
inductive Node where
  | file (content : Bytes) (traits : Traits)
  | folder (entries : List (String × Node))
  | link (target : String)

/-- The names that lead from the root to a node. -/
abbrev Place := List String

namespace Node

/-- The folder without entries. -/
def empty : Node := .folder []

/-- Whether a node is a folder. -/
def isFolder : Node → Bool
  | .folder _ => true
  | _ => false

/-- The node at a place. -/
def at? : Node → Place → Option Node
  | node, [] => some node
  | .folder entries, name :: rest => (Dict.get? entries name).bind fun child => at? child rest
  | _, _ :: _ => none

/-- The tree with a node put at a place, or taken away from it. Nothing changes if
    the place is not in a folder; the root stays. -/
def replace (node : Node) : Place → Option Node → Node
  | [], some other => other
  | [], none => node
  | [name], content =>
    match node, content with
    | .folder entries, some other => .folder (Dict.insert entries name other)
    | .folder entries, none => .folder (Dict.erase entries name)
    | other, _ => other
  | name :: rest, content =>
    match node with
    | .folder entries =>
      match Dict.get? entries name with
      | some child => .folder (Dict.insert entries name (replace child rest content))
      | none => .folder entries
    | other => other

end Node
end Pkgset
