import Pkgset.Kernel.Image
import Pkgset.Shell.Signal
import Pkgset.Shell.Source

/-!
# Sessions

What a shell knows while it runs: its variables, its functions, its traps, and where it
is in a text. What runs may change all that, ask something of the kernel, or stop.
-/

namespace Pkgset.Shell
open Kernel

/-- The value of a variable. -/
inductive Value where
  | unset
  | text (text : String)
  /-- Elements by their numbers, in order. -/
  | items (items : List (Nat × String))
  /-- Elements by their keys. -/
  | keyed (items : List (String × String))
  deriving DecidableEq, Repr

/-- A variable. -/
structure Variable where
  value : Value
  exported : Bool
  readOnly : Bool
  /-- What is assigned is evaluated first. -/
  isNumber : Bool
  /-- What is assigned is put into great letters, or into small ones. -/
  casing : Option Bool

/-- The variable without a value. -/
def Variable.fresh : Variable := ⟨.unset, false, false, false, none⟩

/-- A text as a variable keeps it. -/
def Variable.kept (variable_ : Variable) (text : String) : String :=
  match variable_.casing with
  | some true => text.map Char.toUpper
  | some false => text.map Char.toLower
  | none => text

/-- The letters of what a variable is. -/
def Variable.letters (variable_ : Variable) : String :=
  let kind := match variable_.value with
    | .items _ => "a"
    | .keyed _ => "A"
    | _ => ""
  let casing := match variable_.casing with
    | some true => "u"
    | some false => "l"
    | none => ""
  kind ++ (if variable_.isNumber then "i" else "") ++ (if variable_.readOnly then "r" else "") ++
    (if variable_.exported then "x" else "") ++ casing

/-- The text of an integer. -/
def decimal (n : Int) : String := String.ofList (Decimal.ofInt n)

/-- The text of a variable; of a list, its first element. -/
def Variable.text? (variable_ : Variable) : Option String :=
  match variable_.value with
  | .unset => none
  | .text text => some text
  | .items items => items.lookup 0
  | .keyed items => items.lookup "0"

/-- A job that is not waited for at once: its number, its processes, how each has ended,
    and whether somebody has waited for it. -/
structure Job where
  number : Nat
  processes : List (ProcessId × Option Exit)
  waited : Bool

/-- Where a command was found. -/
structure Located where
  path : String

/-- A choice that is given up when a function ends. -/
inductive Saved where
  | variable (name : String) (old : Option Variable)
  | options (old : List Char)

/-- What a shell knows. -/
structure Session where
  dialect : Dialect
  /-- The name of the shell or of the text that it runs, and the parameters of that. -/
  name : String
  parameters : List String
  bindings : List (String × Variable)
  functions : List (String × Command)
  aliases : List (String × String)
  located : List (String × Located)
  traps : List (Nat × String)
  /-- The signals that were ignored when the shell started. -/
  deaf : List Nat
  /-- The letters of the options that are on; an option without a letter has one that no
      one sees. -/
  options : List Char
  status : Nat
  /-- The status of the last command whose output was put into a word. -/
  outputStatus : Nat
  /-- The process that the shell has started as. -/
  root : ProcessId
  background? : Option ProcessId
  jobs : List Job
  texts : List (Nat × Word)
  number : Nat
  line : Nat
  /-- The line up to which the text has been read. -/
  reading : Nat
  /-- The builtin command that runs. -/
  command? : Option String
  /-- What the function or the other text that runs comes from. -/
  origin? : Option String
  /-- The loops and the functions that run, and what they save. -/
  loops : Nat
  calls : Nat
  saved : List (List Saved)
  /-- The argument that options are read from next, and how far the one before it has
      been read. -/
  optionIndex : Nat
  optionPlace? : Option Nat
  folder : String
  /-- The folders that have been left for others, the latest first. -/
  folders : List String
  /-- The features that are on. -/
  features : List String
  /-- The status before the action of a signal that runs. -/
  trapStatus? : Option Nat
  /-- The descriptors that programs have got by their paths. -/
  lent : List Nat

/-- Why a command is left early. -/
inductive Stop where
  /-- The shell ends with its status. -/
  | exit
  /-- The shell ends, if it is not in the middle of a command that may fail. -/
  | failure
  /-- Some loops are left, or the outermost of them goes on. -/
  | leave (loops : Nat)
  | again (loops : Nat)
  /-- A function or a text is left, perhaps with a status of its own. -/
  | giveBack (chosen : Bool)
  /-- The rest of the line is left. -/
  | abandon
  /-- The shell has gone too deep. -/
  | exhausted
  deriving DecidableEq, Repr

/-- What runs in a shell. -/
abbrev Run := ExceptT Stop (StateT Session Act)

namespace Session

/-- Whether an option is on. -/
def has (session : Session) (letter : Char) : Bool := session.options.contains letter

/-- Turns an option on or off. -/
def setOption (session : Session) (letter : Char) (on : Bool) : Session :=
  let others := session.options.filter (· != letter)
  { session with options := if on then letter :: others else others }

/-- Whether more is understood than in every shell. -/
def isRich (session : Session) : Bool := session.dialect = .rich

/-- Whether a feature is on. -/
def offers (session : Session) (feature : String) : Bool := session.features.contains feature

/-- A variable. -/
def find? (session : Session) (name : String) : Option Variable := session.bindings.lookup name

/-- The text of a variable. -/
def text? (session : Session) (name : String) : Option String := (session.find? name).bind (·.text?)

/-- Puts something under a name, behind what has been there longer. -/
def put {α : Type} (entries : List (String × α)) (name : String) (value : α) : List (String × α) :=
  if entries.any (·.1 = name) then entries.map fun entry => if entry.1 = name then (name, value) else entry
  else entries ++ [(name, value)]

/-- Puts a variable under a name. -/
def setVariable (session : Session) (name : String) (variable_ : Variable) : Session :=
  let session := { session with bindings := put session.bindings name variable_ }
  match name with
  | "PATH" => { session with located := [] }
  | "OPTIND" =>
    let index := (variable_.text?.bind fun text => (text.toNat?).filter (0 < ·)).getD 1
    { session with optionIndex := index, optionPlace? := none }
  | _ => session

/-- Takes a variable away. -/
def removeVariable (session : Session) (name : String) : Session :=
  { session with
    bindings := session.bindings.filter (·.1 != name)
    located := if name = "PATH" then [] else session.located }

/-- The one of some buckets in which a name is kept. -/
def bucket (count : Nat) (name : String) : Nat :=
  let first := (name.toList.head?.elim 0 (·.toNat)) * 16
  (name.foldl (fun sum c => sum + c.toNat) first) % count

/-- Entries in the order of some buckets. -/
def inBucketsOf {α : Type} (count : Nat) (entries : List (String × α)) : List (String × α) :=
  (List.range count).flatMap fun place => entries.filter fun entry => bucket count entry.1 = place

/-- Entries in the order of the buckets for variables and aliases. -/
def inBuckets {α : Type} (entries : List (String × α)) : List (String × α) := inBucketsOf 39 entries

/-- The one of 1024 buckets in which a rich shell keeps the element with a key. -/
def keyBucket (key : String) : Nat :=
  (key.toList.foldl (fun hash c => ((hash * 16777619) % 4294967296) ^^^ c.toNat) 2166136261) % 1024

/-- Elements with keys in the order of their buckets, the latest first in each. -/
def byKeys (items : List (String × String)) : List (String × String) :=
  items.reverse.mergeSort fun a b => decide (keyBucket a.1 ≤ keyBucket b.1)

/-- The environment of a program that the shell starts. -/
def environment (session : Session) : List String :=
  let exported := session.bindings.filterMap fun (name, variable_) =>
    if variable_.exported then variable_.text?.map fun text => (name, name ++ "=" ++ text) else none
  (inBuckets exported).map (·.2)

/-- The characters that separate fields. -/
def separators (session : Session) : List Char := ((session.text? "IFS").getD " \t\n").toList

/-- The message of something that the shell says. -/
def message (session : Session) (text : String) : String :=
  let line := if session.isRich then "line " ++ decimal session.line else decimal session.line
  session.origin?.getD session.name ++ ": " ++ line ++ ": " ++ (session.command?.elim "" (· ++ ": ")) ++ text ++ "\n"

/-- A text in single quotes, as it can be read again. A quote in it is put between
    double quotes. -/
def quoted (text : String) : String :=
  let part (chars : List Char) : String := "'" ++ String.ofList chars ++ "'"
  let rec go : Nat → List Char → String
    | 0, _ => ""
    | bound + 1, chars =>
      let plain := chars.takeWhile (· ≠ '\'')
      let rest := chars.drop plain.length
      let marks := rest.takeWhile (· = '\'')
      if rest.isEmpty then part plain
      else
        let after := rest.drop marks.length
        part plain ++ "\"" ++ String.ofList marks ++ "\"" ++ (if after.isEmpty then "" else go bound after)
  go (text.length + 1) text.toList

end Session

namespace Run
variable {α : Type}

/-- Does something as the process that runs the shell. -/
def act (action : Act α) : Run α := ExceptT.lift (StateT.lift action)

/-- Makes a call. -/
def call (f : ProcessId → Syscall α) : Run (Except Cause α) := act (Act.call f)

/-- The name that the shell goes by, and all that it knows. -/
def session : Run Session := get

/-- Sets the status. -/
def setStatus (status : Nat) : Run Unit := modify fun session => { session with status }

/-- Writes to the standard error. -/
def complainRaw (text : String) : Run Unit := do discard (act (Act.write 2 (Raw.toArray text)))

/-- Says something on the standard error. -/
def complain (text : String) : Run Unit := do complainRaw ((← get).message text)

/-- Says something and stops. -/
def failWith (status : Nat) (text : String) : Run α := do
  complain text
  setStatus status
  throw .failure

/-- Says something and stops with the status of errors. -/
def fail (text : String) : Run α := do
  failWith (if (← get).isRich then 1 else 2) text

/-- Says something and leaves the rest of the line. -/
def abandon (text : String) : Run α := do
  complain text
  setStatus 1
  throw .abandon

/-- Says that a variable cannot be changed, and stops. -/
def refuseChange (name : String) : Run α := do
  let session ← get
  if session.isRich then
    complainRaw ({ session with command? := none }.message (name ++ ": readonly variable"))
    setStatus 1
    throw .abandon
  else fail (name ++ ": is read only")

/-- Writes the output of a builtin command. -/
def emit (text : String) : Run Nat := do
  if text = "" then return 0
  match ← act (Act.write 1 (Raw.toArray text)) with
  | .ok () => return 0
  | .error cause =>
    let session ← get
    let name := session.command?.getD ""
    if session.isRich then complain ("write error: " ++ cause.message)
    else complain (name ++ ": I/O error")
    return 1

/-- Runs something with a part of the session changed, and puts that back afterwards,
    also after a stop. -/
def within (change restore : Session → Session) (action : Run α) : Run α := do
  modify change
  try
    let result ← action
    modify restore
    return result
  catch stop =>
    modify restore
    throw stop

/-- Gives a variable a text. -/
def assign (name text : String) : Run Unit := do
  let session ← get
  let old := session.find? name
  if old.any (·.readOnly) then refuseChange name
  let kept := old.getD .fresh
  let text := kept.kept text
  let value : Value := match kept.value with
    | .items items => .items ((0, text) :: items.filter (·.1 != 0))
    | .keyed items => .keyed (Session.put items "0" text)
    | _ => .text text
  modify (·.setVariable name { kept with value, exported := kept.exported || session.has 'a' })

end Run
end Pkgset.Shell
