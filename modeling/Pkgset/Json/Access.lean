import Pkgset.Json

/-!
# Looking into JSON values

A member that a record does not have is `null`, and a list that is not given is
empty.
-/

namespace Pkgset.Json

/-- The member of a name. -/
def field (value : Json) (name : String) : Json :=
  match value with
  | .record members => (Dict.get? members name).getD .null
  | _ => .null

/-- The items of a list. -/
def items : Json → List Json
  | .list items => items
  | _ => []

/-- The members of a record. -/
def members : Json → List (String × Json)
  | .record members => members
  | _ => []

/-- A text. -/
def text? : Json → Option String
  | .text content => some content
  | _ => none

/-- A number that is not negative. -/
def natural? : Json → Option Nat
  | .number (.ofNat n) => some n
  | _ => none

/-- Whether a value is true. -/
def isTrue : Json → Bool
  | .flag value => value
  | _ => false

/-- A value that may be `null`. -/
def optional? {α : Type} (read : Json → Option α) : Json → Option (Option α)
  | .null => some none
  | value => (read value).map some

/-- A list of texts. -/
def texts? (value : Json) : Option (List String) := value.items.mapM text?

/-- A table of texts. -/
def textTable? (value : Json) : Option (Dict String) := do
  let entries ← value.members.mapM fun (name, content) => do
    let content ← content.text?
    some (name, content)
  some (Dict.ofList entries)

mutual

/-- The number of levels of a value. -/
def depth : Json → Nat
  | .list items => depthOfItems items + 1
  | .record members => depthOfMembers members + 1
  | _ => 1

/-- The number of levels of the deepest item. -/
def depthOfItems : List Json → Nat
  | [] => 0
  | first :: rest => max (depth first) (depthOfItems rest)

/-- The number of levels of the deepest member. -/
def depthOfMembers : List (String × Json) → Nat
  | [] => 0
  | (_, first) :: rest => max (depth first) (depthOfMembers rest)

end

end Pkgset.Json
