import Pkgset.Kernel.Image
import Pkgset.Text.Decimal

/-!
# What programs do

A program has arguments and an environment, collects what it writes until there is
enough of it, and may leave early with a status. Its messages start with the name that
it was started by.
-/

namespace Pkgset.Tool
open Kernel

/-- What points to the help of a program. -/
def helpAdvice (name : String) : String := "Try '" ++ name ++ " --help' for more information.\n"

/-- What a program is started with, and the programs that it may start. -/
structure Setting where
  image : Image
  programs : Programs

/-- What a program does. It keeps what has not been written yet, and leaves by a status. -/
abbrev Work := ReaderT Setting (ExceptT Nat (StateT String Act))

namespace Work
variable {α : Type}

/-- Does something as the process that runs the program. -/
def act (action : Act α) : Work α := fun _ => ExceptT.lift (StateT.lift action)

/-- Makes a call. -/
def call (f : ProcessId → Syscall α) : Work (Except Cause α) := act (Act.call f)

/-- The name that the program was started by. -/
def name : Work String := return (← read).image.arguments.headD ""

/-- The entries of the environment, cut at their first equals signs. -/
def environment : Work (List (String × String)) := do
  return (← read).image.environment.map fun entry =>
    let name := entry.toList.takeWhile (· ≠ '=')
    (String.ofList name, String.ofList (entry.toList.drop (name.length + 1)))

/-- The value of a variable of the environment. -/
def entry? (name : String) : Work (Option String) := return (← environment).lookup name

/-- Writes to the standard error. -/
def complain (text : String) : Work Unit := do discard (act (Act.write 2 (Raw.toArray text)))

/-- How much is collected before it is written. -/
def blockSize : Nat := 4096

/-- Writes to the standard output at once. -/
def putNow (text : String) : Work Unit := do
  if text = "" then return ()
  match ← act (Act.write 1 (Raw.toArray text)) with
  | .ok () => return ()
  | .error cause =>
    complain ((← name) ++ ": write error: " ++ cause.message ++ "\n")
    throw 1

/-- Writes what has been collected. -/
def flush : Work Unit := do
  let text ← getModify fun _ => ""
  putNow text

/-- Writes to the standard output when enough has been collected. -/
def put (text : String) : Work Unit := do
  modify (· ++ text)
  if blockSize ≤ (← get).utf8ByteSize then flush

/-- Says something in the name of the program, after what has been collected. -/
def warn (text : String) : Work Unit := do
  flush
  complain ((← name) ++ ": " ++ text ++ "\n")

/-- Leaves with a status. -/
def leave (status : Nat) : Work α := throw status

/-- Says something and leaves. -/
def fail (status : Nat) (text : String) : Work α := do
  warn text
  leave status

/-- Points to the help and leaves. -/
def advise (status : Nat) : Work α := do
  complain (helpAdvice (← name))
  leave status

/-- Says what is wrong with the arguments and leaves. -/
def misuse (status : Nat) (text : String) : Work α := do
  warn text
  advise status

/-- Reads all of a file; a dash stands for the standard input. -/
def input (path : String) : Work (Except Cause String) := do
  let bytes ← act (if path = "-" then Act.readAll 0 else Act.readFile path)
  return bytes.map Raw.ofArray

/-- What a process does whose program is the given one. What has been collected is written
    at last, also if the program leaves early. -/
def asAct (setting : Setting) (work : Work Nat) : Act Nat := do
  let whole : Work Nat := do
    let status ← try work
      catch status => pure status
    flush
    return status
  let action : StateT String Act (Except Nat Nat) := (ReaderT.run whole setting).run
  let (result, _) ← action.run ""
  match result with
  | .ok status => return status % 256
  | .error status => return status % 256

/-- Runs something as a whole program. -/
def run (work : List String → Work Nat) (programs : Programs) (image : Image) : Act Nat :=
  asAct ⟨image, programs⟩ (work (image.arguments.drop 1))

end Work

/-! ## Options -/

/-- Whether an option has an argument. -/
inductive Demand where
  | none | optional | required
  deriving DecidableEq, Repr

/-- An option: the text that it is known by, its letter and its name. -/
structure Choice where
  key : String
  letter : Option Char
  name : Option String
  demand : Demand

namespace Choice

/-- The option that a text describes: a letter, a slash, and a name; a colon behind them
    asks for an argument, and a question mark allows one. -/
def ofText (text : String) : Choice :=
  let chars := text.toList
  let (demand, chars) := match chars.getLast? with
    | some ':' => (Demand.required, chars.dropLast)
    | some '?' => if 1 < chars.length then (.optional, chars.dropLast) else (.none, chars)
    | _ => (.none, chars)
  match chars with
  | [c] => ⟨c.toString, some c, none, demand⟩
  | c :: '/' :: name => ⟨c.toString, some c, some (String.ofList name), demand⟩
  | '/' :: name => ⟨String.ofList name, none, some (String.ofList name), demand⟩
  | _ => ⟨text, none, none, demand⟩

/-- The options that a text describes, with blanks between them. -/
def listOf (text : String) : List Choice := (text.splitOn " ").map ofText

end Choice

/-- The options that a program knows, whether they may stand behind other arguments, and
    its status and advice if they are wrong. -/
structure Grammar where
  choices : List Choice
  permutes : Bool
  status : Nat
  advice : String → String

/-- The options that were given, each with its argument, and the other arguments. -/
structure Given where
  options : List (String × String)
  operands : List String

namespace Given

/-- Whether an option was given. -/
def has (given : Given) (key : String) : Bool := given.options.any (·.1 = key)

/-- The last argument of an option. -/
def last? (given : Given) (key : String) : Option String :=
  (given.options.filter (·.1 = key)).getLast?.map (·.2)

/-- The arguments of an option. -/
def all (given : Given) (key : String) : List String := (given.options.filter (·.1 = key)).map (·.2)

/-- The last of some options that was given. -/
def lastOf? (given : Given) (keys : List String) : Option String :=
  (given.options.filter fun (key, _) => keys.contains key).getLast?.map (·.1)

end Given

namespace Grammar

/-- The grammar of options that a text describes, with the usual advice. -/
def plain (choices : String) (permutes : Bool) (status : Nat) : Grammar :=
  ⟨Choice.listOf choices, permutes, status, helpAdvice⟩

/-- Says what is wrong with an option and leaves. -/
def refuse (grammar : Grammar) {α : Type} (text : String) : Work α := do
  Work.warn text
  Work.complain (grammar.advice (← Work.name))
  Work.leave grammar.status

/-- Reads the letters of one argument. -/
def letters (grammar : Grammar) : List Char → List String → Work (List (String × String) × List String)
  | [], rest => return ([], rest)
  | c :: more, rest => do
    match grammar.choices.find? fun choice => choice.letter = some c with
    | none => grammar.refuse ("invalid option -- '" ++ c.toString ++ "'")
    | some choice =>
      match choice.demand with
      | .none =>
        let (found, rest) ← letters grammar more rest
        return ((choice.key, "") :: found, rest)
      | .optional => return ([(choice.key, String.ofList more)], rest)
      | .required =>
        if !more.isEmpty then return ([(choice.key, String.ofList more)], rest)
        else match rest with
          | value :: rest => return ([(choice.key, value)], rest)
          | [] => grammar.refuse ("option requires an argument -- '" ++ c.toString ++ "'")

/-- Reads an option by its name, which may be cut short. -/
def named (grammar : Grammar) (text : String) (rest : List String) :
    Work ((String × String) × List String) := do
  let name := String.ofList (text.toList.takeWhile (· ≠ '='))
  let value? : Option String := if name.length < text.length then some (text.drop (name.length + 1)).toString else none
  let exact := grammar.choices.filter fun choice => choice.name = some name
  let close := grammar.choices.filter fun choice => choice.name.any (·.startsWith name)
  let sameKey (choices : List Choice) : Bool := choices.all fun choice => choice.key = (choices.head?.elim "" (·.key))
  let found ← match exact, close with
    | choice :: _, _ => pure choice
    | [], choice :: others =>
      if sameKey (choice :: others) then pure choice
      else
        let listed := (choice :: others).map fun choice => " '--" ++ choice.name.getD "" ++ "'"
        grammar.refuse
          ("option '--" ++ name ++ "' is ambiguous; possibilities:" ++ String.join listed)
    | [], [] => grammar.refuse ("unrecognized option '--" ++ text ++ "'")
  let full := found.name.getD ""
  match found.demand, value? with
  | .none, some _ => grammar.refuse ("option '--" ++ full ++ "' doesn't allow an argument")
  | .none, none => return ((found.key, ""), rest)
  | .optional, value? => return ((found.key, value?.getD ""), rest)
  | .required, some value => return ((found.key, value), rest)
  | .required, none =>
    match rest with
    | value :: rest => return ((found.key, value), rest)
    | [] => grammar.refuse ("option '--" ++ full ++ "' requires an argument")

/-- Reads arguments, within a number of them. -/
def givenWithin (grammar : Grammar) : Nat → List String → Work Given
  | 0, arguments => return ⟨[], arguments⟩
  | bound + 1, arguments => do
    match arguments with
    | [] => return ⟨[], []⟩
    | "--" :: rest => return ⟨[], rest⟩
    | first :: rest =>
      match first.toList with
      | '-' :: '-' :: _ =>
        let (found, rest) ← named grammar (first.drop 2).toString rest
        let given ← givenWithin grammar bound rest
        return { given with options := found :: given.options }
      | '-' :: c :: more =>
        let (found, rest) ← letters grammar (c :: more) rest
        let given ← givenWithin grammar bound rest
        return { given with options := found ++ given.options }
      | _ =>
        if grammar.permutes then
          let given ← givenWithin grammar bound rest
          return { given with operands := first :: given.operands }
        else return ⟨[], arguments⟩

/-- Reads arguments. -/
def given (grammar : Grammar) (arguments : List String) : Work Given :=
  givenWithin grammar (arguments.length + 1) arguments

end Grammar

/-- Reads arguments with options that a text describes. -/
def Work.options (choices : String) (arguments : List String) : Work Given :=
  (Grammar.plain choices true 1).given arguments

/-! ## Numbers -/

/-- The text of a number. -/
def digits (n : Nat) : String := String.ofList (Decimal.digits n)

/-- The text of an integer. -/
def integer (n : Int) : String := String.ofList (Decimal.ofInt n)

/-- The number that a text is. -/
def natural? (text : String) : Option Nat :=
  if text ≠ "" && text.all Char.isDigit then some (Decimal.ofDigits text.toList) else none

/-- The number of bytes that a text tells. -/
def size? (text : String) : Option Nat :=
  let digits := text.toList.takeWhile Char.isDigit
  let factor := match String.ofList (text.toList.drop digits.length) with
    | "" => some 1
    | "c" => some 1
    | "w" => some 2
    | "b" => some 512
    | "k" | "K" | "KiB" => some 1024
    | "kB" | "KB" => some 1000
    | "M" | "MiB" => some 1048576
    | "MB" => some 1000000
    | "G" | "GiB" => some 1073741824
    | "GB" => some 1000000000
    | _ => none
  if digits.isEmpty then none else factor.map (Decimal.ofDigits digits * ·)

/-- A text with blanks in front, to a width. -/
def right (width : Nat) (text : String) : String := String.ofList (List.replicate (width - text.length) ' ') ++ text

/-- A text with blanks behind it, to a width. -/
def left (width : Nat) (text : String) : String := text ++ String.ofList (List.replicate (width - text.length) ' ')

/-! ## Names in messages -/

/-- The characters that a shell would not take as they are. -/
def needsQuotes (text : String) : Bool :=
  text = "" || text.startsWith "#" || text.startsWith "~" || text = "\x7b" || text = "\x7d" ||
    text.any fun (c : Char) => c.toNat < 33 || c.toNat > 126 || "!\"$&'()*;<=>[^\x60|?\\".toList.contains c

/-- The escape of a character that cannot be seen. -/
def unseen (c : Char) : String :=
  match c with
  | '\n' => "\\n"
  | '\t' => "\\t"
  | '\x07' => "\\a"
  | '\x08' => "\\b"
  | '\x0b' => "\\v"
  | '\x0c' => "\\f"
  | '\x0d' => "\\r"
  | c =>
    let octal := String.ofList (Nat.toDigits 8 c.toNat)
    "\\" ++ String.ofList (List.replicate (3 - octal.length) '0') ++ octal

/-- A text in quotes that a shell reads. Characters that cannot be seen stand in quotes of
    their own. -/
def quoted (text : String) : String :=
  let isUnseen (c : Char) : Bool := c.toNat < 32 || c.toNat > 126
  if text.contains '\'' && !text.any fun (c : Char) => isUnseen c || "\"$\x60\\!".toList.contains c then
    "\"" ++ text ++ "\""
  else
    let (body, _) := text.toList.foldl (fun (found, inside) c =>
      if isUnseen c then
        (found ++ (if inside then "" else "'$'") ++ unseen c, true)
      else
        let found := if inside then found ++ "''" else found
        (found ++ (if c = '\'' then "'\\''" else c.toString), false)) ("'", false)
    body ++ "'"

/-- A text in quotes if it needs them. -/
def named (text : String) : String := if needsQuotes text then quoted text else text

/-- A message about a file. -/
def about (path : String) (cause : Cause) : String := named path ++ ": " ++ cause.message

end Pkgset.Tool
