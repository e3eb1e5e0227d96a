import Pkgset.Shell.Builtin.Describe
import Pkgset.Shell.Builtin.Variables
import Pkgset.Shell.Redirection

/-!
# Simple commands and assignments

The fields of a simple command decide what it is, before its arguments are expanded.
What stands in front of it are assignments, which may be its own.
-/

namespace Pkgset.Shell
open Kernel

namespace Evaluation

/-! ## Simple commands -/

/-- How a simple command is understood: the fields in front of the command that counts,
    its own fields so far, the words that are left, whether its builtin command is a
    special one, whether its assignments are its own, whether arguments are expanded like
    assignments, whether functions are passed over, and the search path if it is not the
    shell's. -/
structure Shape where
  passed : List String
  fields : List String
  rest : List Word
  special? : Option Bool
  own : Bool
  assigns : Bool
  passes : Bool
  path? : Option String

/-- The first fields of words, and the words behind them. -/
def firstFields (hooks : Hooks) : List Word → Run (List String × List Word)
  | [] => return ([], [])
  | word :: rest => do
    match ← Expansion.fields hooks word with
    | [] => firstFields hooks rest
    | fields => return (fields, rest)

/-- Drops the first field; more words are expanded if none is left. -/
def nextFields (hooks : Hooks) (fields : List String) (rest : List Word) : Run (List String × List Word) := do
  match fields with
  | _ :: field :: more => return (field :: more, rest)
  | _ => firstFields hooks rest

/-- Reads the options of a command that runs another one. Nothing is given if it has
    options of other kinds, or no command. -/
def commandBehind (hooks : Hooks) : Nat → List String → List Word → Option String → List String →
    Run (Option (List String × Option String) × List String × List Word)
  | 0, fields, rest, _, passed => return (none, passed ++ fields, rest)
  | bound + 1, fields, rest, path?, passed => do
    let passed := passed ++ fields.take 1
    let (fields, rest) ← nextFields hooks fields rest
    match fields with
    | [] => return (none, passed, rest)
    | field :: _ =>
      match field.toList with
      | ['-', '-'] =>
        let (after, rest) ← nextFields hooks fields rest
        if after.isEmpty then return (none, passed ++ [field], rest)
        else return (some (after, path?), passed ++ [field], rest)
      | '-' :: c :: letters =>
        if (c :: letters).all (· = 'p') then
          commandBehind hooks bound fields rest (some Locate.systemPath) passed
        else return (none, passed ++ fields, rest)
      | _ => return (some (fields, path?), passed, rest)

/-- Understands the start of a simple command. -/
def understand (hooks : Hooks) : Nat → Shape → Run Shape
  | 0, shape => return shape
  | bound + 1, shape => do
    let session ← get
    match shape.fields with
    | [] => return shape
    | name :: _ =>
      let isFunction := !shape.passes && (session.functions.lookup name).isSome
      if isFunction || !Builtin.isBuiltin session name then
        return { shape with own := true, assigns := false }
      let special := Builtin.isSpecial session name
      let shape := { shape with
        assigns := Builtin.takesAssignments session name
        special? := some (shape.special?.getD special)
        own := if shape.special?.isSome then true else !special }
      if name != "command" then return shape
      let (behind, passed, rest) ← commandBehind hooks (shape.fields.length + shape.rest.length + 1) shape.fields shape.rest
        shape.path? []
      match behind with
      | none => return { shape with fields := passed, rest }
      | some (fields, path?) =>
        understand hooks bound { shape with passed := shape.passed ++ passed, fields, rest, passes := true, path? }

/-- The name, the place and the value of an assignment, and whether it adds to what is
    there. -/
structure Assigned where
  name : String
  place : Option Word
  adds : Bool
  value : Word

/-- Cuts an assignment into its parts. -/
def assigned (word : Word) : Assigned :=
  let isPart (piece : Piece) : Bool :=
    match piece with
    | .char c false => Reader.inName c
    | _ => false
  let name := String.ofList (Word.characters (word.takeWhile isPart))
  let rest := word.dropWhile isPart
  let (place, rest) := match rest with
    | .char '[' false :: inner =>
      let after := (Reader.afterPlace 1 inner).getD []
      (some (inner.take (inner.length - after.length - 1)), after)
    | _ => (none, rest)
  match rest with
  | .char '+' false :: .char '=' false :: value => ⟨name, place, true, value⟩
  | _ => ⟨name, place, false, rest.drop 1⟩

/-- The element that a word of a list is: its place, if it tells one, and its value. -/
def elementOf (word : Word) : Option Word × Word :=
  match word with
  | .char '[' false :: inner =>
    match Reader.afterPlace 1 inner with
    | some (.char '=' false :: value) => (some (inner.take (inner.length - value.length - 2)), value)
    | _ => (none, word)
  | _ => (none, word)

/-- Gives a variable the elements of a list. -/
def assignItems (hooks : Hooks) (name : String) (adds : Bool) (words : List Word) : Run Unit := do
  let old := ((← get).find? name).getD .fresh
  if old.readOnly then Run.refuseChange name
  let isKeyed := match old.value with
    | .keyed _ => true
    | _ => false
  let start : Value := if adds then old.value else if isKeyed then .keyed [] else .items []
  let mut value := match start with
    | .keyed items => Value.keyed items
    | other => .items other.toItems
  for word in words do
    match elementOf word, value with
    | (some place, text), .keyed items =>
      let key ← Expansion.text hooks .never place
      value := .keyed (Session.put items key (← Expansion.text hooks .value text))
    | (some place, text), .items items =>
      let n ← Expansion.sum (← Expansion.text hooks .never place)
      value := .items (Value.withItem items n.toNat (← Expansion.text hooks .value text))
    | (none, word), .items items =>
      let fields ← Expansion.fields hooks word
      value := .items (fields.foldl (fun items text =>
        Value.withItem items (items.getLast?.elim 0 fun last => last.1 + 1) text) items)
    | _, _ => pure ()
  modify (·.setVariable name { old with value })

/-- Makes an assignment and gives its text. -/
def assign (hooks : Hooks) (word : Word) : Run String := do
  let parts := assigned word
  let mark := if parts.adds then "+=" else "="
  match parts.place, parts.value with
  | none, [.items words] =>
    assignItems hooks parts.name parts.adds words
    return parts.name ++ mark ++ "()"
  | none, value =>
    let text ← Expansion.text hooks .value value
    if (← get).isRich then discard (Builtin.assignText parts.name parts.adds text)
    else Run.assign parts.name text
    return parts.name ++ mark ++ text
  | some place, value =>
    let text ← Expansion.text hooks .value value
    let key ← Expansion.text hooks .never place
    let isKeyed := match (← get).value parts.name with
      | .keyed _ => true
      | _ => false
    let number ← if isKeyed then pure 0 else Expansion.sum key
    let session ← get
    let before := if !parts.adds then "" else
      match session.value parts.name with
      | .keyed items => (items.lookup key).getD ""
      | value => (Session.item? value.toItems number).getD ""
    Expansion.assignPlace parts.name key number (before ++ text)
    return parts.name ++ "[" ++ key ++ "]" ++ mark ++ text

/-- Makes the assignment of a list that a declaration has. A variable that the declaration
    has made a constant gets its list before that counts. -/
def assignDeclared (hooks : Hooks) (constants : List String) (word : Word) : Run Unit := do
  let name := (assigned word).name
  let lock (locked : Bool) : Run Unit := modify fun session =>
    match session.find? name with
    | some variable_ => session.setVariable name { variable_ with readOnly := locked }
    | none => session
  let isConstant := ((← get).find? name).any (·.readOnly)
  if isConstant && !constants.contains name then
    lock false
    discard (assign hooks word)
    lock true
  else discard (assign hooks word)

/-- Marks a variable as one for other programs. -/
def mark (name : String) : Run Unit := modify fun session =>
  match session.find? name with
  | some variable_ => session.setVariable name { variable_ with exported := true }
  | none => session

/-- Makes the assignments in front of a command. They may be its own, and programs may
    see them. -/
def assignAll (hooks : Hooks) (own exported : Bool) (words : List Word) : Run (List String) :=
  words.mapM fun word => do
    let name := (assigned word).name
    if own then Builtin.save name
    try
      let text ← assign hooks word
      if own || exported then mark name
      return text
    catch stop => if own && stop = .abandon then return "" else throw stop

/-- Does something with variables of its own. -/
def withOwn {α : Type} (own : Bool) (action : Run α) : Run α :=
  if own then
    Run.within (fun session => { session with saved := [] :: session.saved }) Builtin.restore action
  else action

/-- Gives a list variable its elements, as texts. -/
def noteItems (name : String) (texts : List String) : Run Unit := modify fun session =>
  session.setVariable name { Variable.fresh with value := .items (texts.zipIdx.map fun (text, n) => (n, text)) }

/-- The arguments of a command, and the lists that it is to assign. -/
def arguments (hooks : Hooks) (shape : Shape) : Run (List String × List Word) := do
  let rich := (← get).isRich
  let found ← shape.rest.mapM fun word => do
    if shape.assigns && Reader.isAssignment rich word then
      let parts := assigned word
      match rich, parts.value with
      | true, [.items _] => return ([parts.name], [word])
      | _, _ => return ([← Expansion.text hooks .value word], [])
    else return (← Expansion.fields hooks word, [])
  return ((found.map (·.1)).flatten, (found.map (·.2)).flatten)

/-- Shows a command before it is run. -/
def trace (hooks : Hooks) (kept : List (Nat × Option Nat)) (assignments fields : List String) : Run Unit := do
  let session ← get
  if !session.has 'x' then return ()
  set (session.setOption 'x' false)
  let mark := (session.text? "PS4").getD ""
  let mark ← Expansion.text hooks .never (Reader.expandable mark session.dialect)
  modify (·.setOption 'x' true)
  let descriptor := ((kept.lookup 2).bind id).getD 2
  let write (words : List String) : Run Unit := do
    discard (Run.act (Act.write descriptor (Raw.toArray (mark ++ " ".intercalate words ++ "\n"))))
  if session.isRich then
    let shown (text : String) : String :=
      if text ≠ "" && text.all Expansion.isSafe then text else Expansion.singleQuoted text
    for text in assignments do
      let name := String.ofList (text.toList.takeWhile (· ≠ '='))
      let value := (text.drop (name.length + 1)).toString
      write [name ++ "=" ++ (if value = "" then "" else shown value)]
    if !fields.isEmpty then write (fields.map shown)
  else write (assignments ++ fields)

end Evaluation
end Pkgset.Shell
