import Pkgset.Shell.Session

/-!
# Parameters

Parameters are variables, the arguments of the shell or the function that runs, and
some that tell of the shell itself.
-/

namespace Pkgset.Shell

namespace Session

/-- The letters of options in the order in which they are told. -/
def optionLetters : List Char := ['p', 'u', 'b', 'a', 'C', 'E', 'V', 'v', 'x', 's', 'n', 'm', 'i', 'I', 'f', 'e']

/-- The letters of options in the order in which a rich shell tells them. -/
def richLetters : List Char :=
  ['a', 'b', 'e', 'f', 'h', 'k', 'n', 'p', 't', 'u', 'v', 'x', 'B', 'C', 'E', 'H', 'P', 'T', 'c', 's']

/-- The letters of the options that are on. -/
def flags (session : Session) : String :=
  if session.isRich then
    String.ofList (richLetters.filter session.has)
  else String.ofList (optionLetters.filter session.has)

/-- The value of a variable. -/
def value (session : Session) (name : String) : Value := (session.find? name).elim .unset (·.value)

/-- The elements of a variable. -/
def elements (session : Session) (name : String) : List String :=
  match session.value name with
  | .items items => items.map (·.2)
  | .keyed items => (byKeys items).map (·.2)
  | .text text => [text]
  | .unset => []

/-- The places of the elements of a variable. -/
def places (session : Session) (name : String) : List String :=
  match session.value name with
  | .items items => items.map fun (place, _) => decimal place
  | .keyed items => (byKeys items).map (·.1)
  | .text _ => ["0"]
  | .unset => []

/-- The value of a parameter that is no list. -/
def parameter? (session : Session) (name : String) : Option String :=
  match name with
  | "#" => some (decimal session.parameters.length)
  | "?" => some (decimal session.status)
  | "$" => some (decimal session.root)
  | "-" => some session.flags
  | "!" => session.background?.map fun id => decimal id
  | "0" => some session.name
  | "LINENO" => if session.isRich then some (decimal session.line) else session.text? name
  | _ =>
    if name.toList.all Char.isDigit && name ≠ "" then
      let place := Decimal.ofDigits name.toList
      if place = 0 then some session.name else session.parameters[place - 1]?
    else session.text? name

/-- What stands between values that are joined. -/
def joint (session : Session) : String :=
  match session.text? "IFS" with
  | some text => (text.take 1).toString
  | none => " "

/-- The item of a list at a number; a negative number counts from the end. -/
def item? (items : List (Nat × String)) (place : Int) : Option String :=
  if 0 ≤ place then items.lookup place.toNat
  else
    let size := (items.map (·.1)).foldl max 0 + 1
    if (size : Int) + place < 0 then none else items.lookup (size + place).toNat

end Session

namespace Value

/-- The items of a list with one more, in the order of their numbers. -/
def withItem (items : List (Nat × String)) (place : Nat) (text : String) : List (Nat × String) :=
  (items.filter (·.1 < place)) ++ [(place, text)] ++ items.filter (place < ·.1)

/-- The items that a value has. -/
def toItems : Value → List (Nat × String)
  | .unset => []
  | .text first => [(0, first)]
  | .items found => found
  | .keyed _ => []

end Value
end Pkgset.Shell
