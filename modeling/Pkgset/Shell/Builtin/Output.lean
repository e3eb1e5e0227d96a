import Pkgset.Shell.Builtin.Options
import Pkgset.Shell.Expansion
import Pkgset.Text.Format

/-!
# Builtin commands that write
-/

namespace Pkgset.Shell.Builtin
open Kernel

/-- How every shell reads formats. -/
def plainStyle : FormatStyle where
  hexEscapes := false
  codeEscapes := false
  stopEscape := false
  quoteEscape := false
  quote := none
  bits := 53
  notNumber := (· ++ ": expected numeric value")
  notWhole := (· ++ ": not completely converted")
  tooGreat := (· ++ ": Numerical result out of range")
  wantsNumber := false
  unknown := (· ++ ": invalid directive")
  noLetter := fun _ => "missing format character"

/-- How a rich shell reads formats. -/
def richStyle : FormatStyle where
  hexEscapes := true
  codeEscapes := true
  stopEscape := false
  quoteEscape := true
  quote := some Expansion.backslashed
  bits := 64
  notNumber := (· ++ ": invalid number")
  notWhole := (· ++ ": invalid number")
  tooGreat := ("warning: " ++ · ++ ": Numerical result out of range")
  wantsNumber := false
  unknown := fun directive =>
    let letter := String.ofList (directive.toList.getLast?.toList)
    "\x60" ++ letter ++ "': invalid format character"
  noLetter := fun directive => "\x60" ++ directive ++ "': missing format character"

/-- The arguments of an echo, one after another with blanks between them, and whether a
    line end follows. -/
def echoed : List (List Char × Bool) → List Char × Bool
  | [] => ([], true)
  | (text, true) :: _ => (text, false)
  | [(text, false)] => (text, true)
  | (text, false) :: rest =>
    let (more, ends) := echoed rest
    (text ++ ' ' :: more, ends)

/-- The options of an echo that has some, and the arguments behind them. -/
def echoOptions (known : List Char) : List String → List Char × List String
  | first :: rest =>
    match first.toList with
    | '-' :: c :: more =>
      if (c :: more).all known.contains then
        let (found, rest) := echoOptions known rest
        (c :: more ++ found, rest)
      else ([], first :: rest)
    | _ => ([], first :: rest)
  | [] => ([], [])

/-- Whether escapes are resolved after some options. -/
def resolves (options : List Char) (initially : Bool) : Bool :=
  options.foldl (fun before c => if c = 'e' then true else if c = 'E' then false else before) initially

/-- The text that an echo writes. -/
def echoText (style : FormatStyle) (resolve silent : Bool) (arguments : List String) : String :=
  let parts := arguments.map fun text =>
    if resolve then Format.unescaped style (text.length + 1) text.toList else (text.toList, false)
  let (text, ends) := echoed parts
  String.ofList (text ++ if ends && !silent then ['\n'] else [])

/-- Writes arguments. -/
def echo (arguments : List String) : Run Nat := do
  if (← get).isRich then
    let (options, arguments) := echoOptions ['n', 'e', 'E'] arguments
    Run.emit (echoText richStyle (resolves options false) (options.contains 'n') arguments)
  else
    let (silent, arguments) := match arguments with
      | "-n" :: rest => (true, rest)
      | rest => (false, rest)
    Run.emit (echoText plainStyle true silent arguments)

/-- Writes arguments by a format. -/
def printf (arguments : List String) : Run Nat := do
  let rich := (← get).isRich
  let (target, arguments) ← if rich then do
      let (found, rest) ← options [('v', true)] arguments
      pure (found.lookup 'v', rest)
    else do
      let (_, rest) ← options [] arguments
      pure (none, rest)
  match arguments with
  | [] =>
    if rich then misuse
    else Run.fail "usage: printf format [arg ...]"
  | format :: arguments =>
    let (printed, _) := Format.print (if rich then richStyle else plainStyle) format arguments
    for (_, message) in printed.messages do Run.complain message
    let text := String.ofList printed.output
    match printed.fault with
    | some message =>
      Run.complain message
      discard (Run.emit text)
      if rich then return 1
      Run.setStatus 2
      throw .failure
    | none =>
      let status ← match target with
        | some name => do
          setChecked name text
          pure 0
        | none => Run.emit text
      return max status (if printed.failed then 1 else 0)

end Pkgset.Shell.Builtin
