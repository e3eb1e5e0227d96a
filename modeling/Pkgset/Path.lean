/-!
# Paths

A path is text. Joining normalizes nothing: an absolute second part replaces the
first, and else one separator is put between the two unless the first ends in one.
-/

namespace Pkgset.Path

/-- The second path as seen from the first. -/
def join (base part : String) : String :=
  if part.startsWith "/" then part
  else if base.isEmpty || base.endsWith "/" then base ++ part
  else base ++ "/" ++ part

/-- Whether a path starts at the root. -/
def isAbsolute (path : String) : Bool := path.startsWith "/"

/-- Cuts characters at every separator. -/
def cut : List Char → List (List Char)
  | [] => [[]]
  | c :: rest =>
    if c = '/' then [] :: cut rest
    else match cut rest with
      | [] => [[c]]
      | first :: others => (c :: first) :: others

/-- The parts of a path between its separators, the empty ones too. -/
def pieces (path : String) : List String := (cut path.toList).map String.ofList

/-- The components of a path: empty parts are dropped, and so are single points
    that do not start a relative path. -/
def components (path : String) : List String :=
  match (pieces path) with
  | [] => []
  | first :: rest =>
    let others := rest.filter fun piece => piece ≠ "" ∧ piece ≠ "."
    if first = "" then others else first :: others

/-- The last component, unless it is a step upwards. -/
def fileName? (path : String) : Option String :=
  match (components path).getLast? with
  | some name => if name = ".." ∨ name = "." then none else some name
  | none => none

/-- The path without its last component; the root and the empty path have no parent. -/
def parent? (path : String) : Option String :=
  match (components path).reverse with
  | [] => none
  | _ :: upper =>
    let text := "/".intercalate upper.reverse
    some (if isAbsolute path then "/" ++ text else text)

end Pkgset.Path
