import Pkgset.Kernel.Activity
import Pkgset.Shell.Field

/-!
# Patterns of paths

A field that is a pattern stands for the paths that it matches, in the order of their
bytes. Separators are never matched by anything but themselves, and a point in front
of a name has to be written.
-/

namespace Pkgset.Shell
open Kernel

namespace Glob

/-- Cuts a field at its separators of paths. -/
def pieces : Field → List Field
  | [] => [[]]
  | (c, quoted) :: rest =>
    if c = '/' then [] :: pieces rest
    else match pieces rest with
      | [] => [[(c, quoted)]]
      | first :: others => ((c, quoted) :: first) :: others

/-- How patterns of paths are understood: how they are written, whether a point in front
    of a name need not be written, whether the two points of a folder are left out, whether
    the case of letters counts for nothing, and whether two asterisks go into folders. -/
structure Manner where
  style : Pattern.Style
  dots : Bool
  skipsPoints : Bool
  ignoresCase : Bool
  deep : Bool

/-- The pattern of a field. -/
def Manner.pattern (how : Manner) (field : Field) : Pattern :=
  Pattern.inStyle how.style (if how.ignoresCase then field.map fun (c, quoted) => (c.toLower, quoted) else field)

/-- Whether a pattern starts with a point. -/
def startsWithPoint (pattern : Pattern) : Bool :=
  match pattern with
  | .exactly '.' :: _ => true
  | _ => false

/-- The names in a folder. -/
def namesIn (world : World) (id : ProcessId) (folder : String) : Option (List String) :=
  match world.find id true (if folder = "" then "." else folder) with
  | .error _ => none
  | .ok found => if (world.inode found).isFolder then some ((world.inode found).entries.map (·.1)) else none

/-- The names in a folder that a pattern matches. -/
def names (how : Manner) (world : World) (id : ProcessId) (folder : String) (pattern : Pattern) : List String :=
  let found := (namesIn world id folder).getD []
  let found :=
    if startsWithPoint pattern then
      if how.skipsPoints || (namesIn world id folder).isNone then found else "." :: ".." :: found
    else if how.dots then found
    else found.filter (!·.startsWith ".")
  found.filter fun name => Pattern.accepts pattern (if how.ignoresCase then name.toLower else name).toList

/-- How deep folders are looked through. -/
def depthLimit : Nat := 1000

/-- The paths below a folder, and the folders among them. -/
def below (how : Manner) (world : World) (id : ProcessId) : Nat → String → List (String × Bool)
  | 0, _ => []
  | depth + 1, folder =>
    let found := ((namesIn world id folder).getD []).filter fun name => how.dots || !name.startsWith "."
    found.flatMap fun name =>
      let path := folder ++ name
      let isFolder := match world.find id false path with
        | .ok inode => (world.inode inode).isFolder
        | .error _ => false
      (path, isFolder) :: (if isFolder then below how world id depth (path ++ "/") else [])

/-- The paths that pieces match behind a path that was matched. -/
def pathsFrom (how : Manner) (world : World) (id : ProcessId) (matched : String) : List Field → List String
  | [] => [matched]
  | piece :: rest =>
    let ending := if rest.isEmpty then "" else "/"
    let pattern := how.pattern piece
    if how.deep && piece = [('*', false), ('*', false)] then
      let found := below how world id depthLimit matched
      if rest.isEmpty then (if matched = "" then [] else [matched]) ++ found.map (·.1)
      else (matched :: (found.filter (·.2)).map (·.1 ++ "/")).flatMap fun path => pathsFrom how world id path rest
    else if Pattern.isOpen pattern then
      (names how world id matched pattern).flatMap fun name => pathsFrom how world id (matched ++ name ++ ending) rest
    else
      let path := matched ++ Field.text (Pattern.unescaped piece) ++ ending
      if rest.isEmpty && (world.find id false path).toOption.isNone then []
      else pathsFrom how world id path rest

/-- The order of paths. -/
def sorted (paths : List String) : List String := paths.mergeSort fun a b => !decide (b < a)

/-- The paths that a field matches, if it is a pattern. -/
def paths (how : Manner) (world : World) (id : ProcessId) (field : Field) : List String :=
  if Pattern.isOpen (how.pattern field) then sorted (pathsFrom how world id "" (pieces field)) else []

end Glob
end Pkgset.Shell
