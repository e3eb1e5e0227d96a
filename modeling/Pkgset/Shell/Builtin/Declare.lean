import Pkgset.Shell.Builtin.Variables

/-!
# Declarations

A rich shell declares variables with what they are to be: numbers, lists, texts in one
case, constants, or variables for other programs. In a function a declaration is local.
-/

namespace Pkgset.Shell.Builtin
open Kernel

/-- What the options of a declaration turn on and off. -/
structure Wishes where
  on : List Char
  off : List Char

/-- Reads the options of a declaration, within a number of arguments. -/
def wishes : Nat → List String → Wishes → Run (Wishes × List String)
  | 0, arguments, found => return (found, arguments)
  | bound + 1, arguments, found => do
    match arguments with
    | "--" :: rest => return (found, rest)
    | first :: rest =>
      match first.toList with
      | sign :: c :: more =>
        if sign != '-' && sign != '+' then return (found, arguments)
        let letters := c :: more
        if let some wrong := letters.find? fun c => !"aAfFgiIlnprtux".toList.contains c then
          misuseWith (sign.toString ++ wrong.toString ++ ": invalid option")
        wishes bound rest (if sign = '-' then { found with on := found.on ++ letters }
          else { found with off := found.off ++ letters })
      | _ => return (found, arguments)
    | [] => return (found, [])

/-- A variable with what a declaration asks for. -/
def Wishes.apply (wanted : Wishes) (variable_ : Variable) : Variable :=
  let on (c : Char) : Bool := wanted.on.contains c
  let off (c : Char) : Bool := wanted.off.contains c
  let value : Value :=
    if on 'A' then
      match variable_.value with
      | .keyed items => .keyed items
      | _ => .keyed []
    else if on 'a' then
      match variable_.value with
      | .text text => .items [(0, text)]
      | .unset => .items []
      | other => other
    else variable_.value
  { variable_ with
    value
    exported := (variable_.exported || on 'x') && !off 'x'
    readOnly := variable_.readOnly || on 'r'
    isNumber := (variable_.isNumber || on 'i') && !off 'i'
    casing := if on 'u' && on 'l' then none else if on 'u' then some true else if on 'l' then some false
      else if off 'u' || off 'l' then none else variable_.casing }

/-- Saves a variable until the function ends, unless that is done already. A new variable
    stands in its place. -/
def makeLocal (name : String) : Run Unit := do
  let session ← get
  let isSaved := match session.saved with
    | scope :: _ => scope.any fun saved =>
      match saved with
      | .variable other _ => other = name
      | .options _ => false
    | [] => false
  if !isSaved then
    save name
    modify (·.setVariable name .fresh)

/-- Declares one variable, and tells whether that works. -/
def declareOne (wanted : Wishes) (isLocal : Bool) (argument : String) : Run Bool := do
  let (left, value?) := match assignment? argument with
    | some (left, text) => (left, some text)
    | none => (argument, none)
  let adds := value?.isSome && left.endsWith "+"
  let left := if adds then (left.dropEnd 1).toString else left
  let name := String.ofList (left.toList.takeWhile (· ≠ '['))
  let place := (left.toList.drop (name.length + 1)).dropLast
  if !Reader.isName name then
    Run.complain ("\x60" ++ argument ++ "': not a valid identifier")
    return false
  if isLocal then makeLocal name
  let old := ((← get).find? name).getD .fresh
  if old.readOnly && (value?.isSome || wanted.off.contains 'r') then
    Run.complain (name ++ ": readonly variable")
    return false
  modify (·.setVariable name { wanted.apply old with readOnly := false })
  if let some text := value? then
    if left = name then discard (assignText name adds text)
    else
      let key := String.ofList place
      let isKeyed := match (← get).value name with
        | .keyed _ => true
        | _ => false
      let number ← if isKeyed then pure 0 else Expansion.sum key
      Expansion.assignPlace name key number text
  modify fun session => session.setVariable name
    { (session.find? name).getD .fresh with readOnly := (wanted.apply old).readOnly }
  return true

/-- Whether a listing for some options has a variable. -/
def isListed (wanted : Wishes) (variable_ : Variable) : Bool :=
  wanted.on.all fun c =>
    match c with
    | 'x' => variable_.exported
    | 'r' => variable_.readOnly
    | 'i' => variable_.isNumber
    | 'u' => variable_.casing = some true
    | 'l' => variable_.casing = some false
    | 'a' => match variable_.value with
      | .items _ => true
      | _ => false
    | 'A' => match variable_.value with
      | .keyed _ => true
      | _ => false
    | 'p' | 'g' => true
    | _ => false

/-- Declares variables, or lists them. -/
def declareAs (isLocal : Bool) (arguments : List String) : Run Nat := do
  let (wanted, names) ← wishes (arguments.length + 1) arguments ⟨[], []⟩
  let session ← get
  let on (c : Char) : Bool := wanted.on.contains c
  if on 'f' || on 'F' then
    if names.isEmpty then
      Run.emit (String.join ((session.functions.mergeSort fun a b => !decide (b.1 < a.1)).map fun (name, _) =>
        "declare -f " ++ name ++ "\n"))
    else
      let mut status := 0
      for name in names do
        if (session.functions.lookup name).isNone then status := 1
        else if on 'F' then discard (Run.emit (name ++ "\n"))
      return status
  else if names.isEmpty then
    if isLocal then return 0
    else if wanted.on.isEmpty then set_ []
    else Run.emit (String.join ((sortedVariables session).filterMap fun (name, variable_) =>
      if isListed wanted variable_ then some (declared name variable_) else none))
  else if on 'p' then
    let mut status := 0
    for name in names do
      match session.find? name with
      | some variable_ => discard (Run.emit (declared name variable_))
      | none =>
        Run.complain (name ++ ": not found")
        status := 1
    return status
  else
    let mut status := 0
    for name in names do
      if !(← declareOne wanted (isLocal || (0 < session.calls && !on 'g')) name) then status := 1
    return status

/-- Declares variables, which are local in a function. -/
def declare : List String → Run Nat := declareAs false

/-- Declares local variables. -/
def localOf (arguments : List String) : Run Nat := do
  let session ← get
  if !session.isRich then local_ arguments
  else if session.calls = 0 then Run.failWith 1 "can only be used in a function"
  else if arguments = ["-"] then local_ arguments
  else declareAs true arguments

end Pkgset.Shell.Builtin
