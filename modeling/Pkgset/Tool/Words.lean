import Pkgset.Shell.Builtin.Output
import Pkgset.Shell.Condition
import Pkgset.Tool.Work

/-!
# Programs that work on their arguments
-/

namespace Pkgset.Tool
open Kernel

/-- Succeeds. -/
def succeed (_ : List String) : Work Nat := return 0

/-- Fails. -/
def failAlways (_ : List String) : Work Nat := return 1

/-! ## Texts -/

/-- How formats are read. -/
def formatStyle : FormatStyle where
  hexEscapes := true
  codeEscapes := true
  stopEscape := true
  quoteEscape := true
  quote := some named
  bits := 64
  notNumber := fun text => quoted text ++ ": expected a numeric value"
  notWhole := fun text => quoted text ++ ": value not completely converted"
  tooGreat := fun text => quoted text ++ ": Numerical result out of range"
  wantsNumber := true
  unknown := (· ++ ": invalid conversion specification")
  noLetter := (· ++ ": invalid conversion specification")

/-- Writes its arguments. -/
def echo (arguments : List String) : Work Nat := do
  let (options, arguments) := Shell.Builtin.echoOptions ['n', 'e', 'E'] arguments
  let style := { formatStyle with codeEscapes := false }
  Work.put (Shell.Builtin.echoText style (Shell.Builtin.resolves options false) (options.contains 'n') arguments)
  return 0

/-- Writes its arguments by a format. -/
def printf (arguments : List String) : Work Nat := do
  let arguments := match arguments with
    | "--" :: rest => rest
    | rest => rest
  match arguments with
  | [] => Work.misuse 1 "missing operand"
  | format :: arguments =>
    let (printed, rest) := Format.print formatStyle format arguments
    let mut written := 0
    for (place, message) in printed.messages do
      Work.put (String.ofList ((printed.output.take place).drop written))
      Work.warn message
      written := place
    Work.put (String.ofList (printed.output.drop written))
    if let some message := printed.fault then Work.fail 1 message
    if let extra :: _ := rest then
      if !printed.hasDirectives then Work.warn ("warning: ignoring excess arguments, starting with " ++ quoted extra)
    return if printed.failed then 1 else 0

/-- Writes a line again and again. -/
def repeatLine (text : String) : Nat → Work Unit
  | 0 => return ()
  | rounds + 1 => do
    Work.putNow text
    repeatLine text rounds

/-- Writes its arguments again and again. -/
def yes (arguments : List String) : Work Nat := do
  let given ← Work.options "" arguments
  let line := (if given.operands.isEmpty then "y" else " ".intercalate given.operands) ++ "\n"
  let count := 8192 / line.length + 1
  repeatLine (String.join (List.replicate count line)) 1000000000
  return 0

/-! ## Paths -/

/-- A path without separators at its end. -/
def trimmed (path : String) : String :=
  let chars := (path.toList.reverse.dropWhile (· = '/')).reverse
  if chars.isEmpty && path ≠ "" then "/" else String.ofList chars

/-- The last name of a path. -/
def lastName (path : String) : String :=
  let path := trimmed path
  if path = "/" then "/" else ((path.splitOn "/").getLast?).getD ""

/-- The path of the folder that a path is in. -/
def folderOf (path : String) : String :=
  let path := trimmed path
  let front := (path.toList.reverse.dropWhile (· ≠ '/')).dropWhile (· = '/')
  if front.isEmpty then (if path.startsWith "/" then "/" else ".") else String.ofList front.reverse

/-- Writes the last names of paths, perhaps without a suffix. -/
def basename (arguments : List String) : Work Nat := do
  let given ← (Grammar.plain "a/multiple s/suffix: z/zero" false 1).given arguments
  let ending := if given.has "z" then "\x00" else "\n"
  let without (ending_ name : String) : String :=
    if ending_ ≠ "" && name.endsWith ending_ && name ≠ ending_ then (name.dropEnd ending_.length).toString else name
  match given.operands with
  | [] => Work.misuse 1 "missing operand"
  | operands =>
    if given.has "a" || given.has "s" then
      for path in operands do Work.put (without ((given.last? "s").getD "") (lastName path) ++ ending)
      return 0
    else match operands with
      | [path] => Work.put (lastName path ++ ending)
      | [path, last] => Work.put (without last (lastName path) ++ ending)
      | _ :: _ :: extra :: _ => Work.misuse 1 ("extra operand " ++ quoted extra)
      | [] => pure ()
      return 0

/-- Writes paths without their last names. -/
def dirname (arguments : List String) : Work Nat := do
  let given ← Work.options "z/zero" arguments
  if given.operands.isEmpty then Work.misuse 1 "missing operand"
  for path in given.operands do Work.put (folderOf path ++ (if given.has "z" then "\x00" else "\n"))
  return 0

/-- Writes the folder that the program is in. -/
def pwd (arguments : List String) : Work Nat := do
  let given ← Work.options "L/logical P/physical" arguments
  match ← Work.call Syscall.currentFolder with
  | .error _ => Work.fail 1 "couldn't find directory entry in '..' with matching i-node"
  | .ok path =>
    let told := (← Work.entry? "PWD").getD ""
    let isSame : Bool ← Work.act do
      match ← Act.call (Syscall.inspect · true told), ← Act.call (Syscall.inspect · true ".") with
      | .ok (a, _), .ok (b, _) => return decide (a = b)
      | _, _ => return false
    let plain := told.startsWith "/" && !(told.splitOn "/").any fun part => part = "." || part = ".."
    Work.put ((if given.lastOf? ["L", "P"] = some "L" && plain && isSame then told else path) ++ "\n")
    return 0

/-! ## Conditions -/

/-- What is said of conditions without a meaning. -/
def wording : Shell.Condition.Wording where
  number := fun text => "invalid integer " ++ quoted text
  unaryExpected := fun _ second => "missing argument after " ++ quoted second
  binaryExpected := fun mark => quoted mark ++ ": binary operator expected"
  missing := fun _ => "missing argument"
  extra := fun word => "extra argument " ++ quoted word
  closing := "')' expected"

/-- Tests a condition. -/
def test (arguments : List String) : Work Nat := do
  match ← Work.act (Shell.Condition.counted wording arguments).run with
  | .ok holds => return if holds then 0 else 1
  | .error message => Work.fail 2 message

/-- Tests a condition between brackets. -/
def bracket (arguments : List String) : Work Nat := do
  if arguments.getLast? = some "]" then test arguments.dropLast else Work.fail 2 "missing ']'"

end Pkgset.Tool
