import Pkgset.Tool.Intake
import Pkgset.Tool.Start

/-!
# Arguments from the input

What is read becomes the arguments of a command, which is run as often as it takes.
Quotes and backslashes keep blanks in an argument.
-/

namespace Pkgset.Tool
open Kernel

namespace Supply

/-- How the input is cut: into words, into lines that are single arguments, or at a
    character. -/
inductive Cutting where
  | words | lines | at_ (delimiter : Char)
  deriving DecidableEq

/-- An argument, and whether the line that it is on ends with it. -/
abbrev Item := String × Bool

/-- What has been read of arguments: those that are whole, the characters of the next one,
    and whether it has begun. -/
structure Progress where
  done : List Item
  word : List Char
  begun : Bool

/-- Ends the argument that is being read. -/
def Progress.cut (progress : Progress) (endsLine : Bool) : Progress :=
  if progress.begun then ⟨(String.ofList progress.word.reverse, endsLine) :: progress.done, [], false⟩
  else if endsLine then
    match progress.done with
    | (text, false) :: done => { progress with done := (text, true) :: done }
    | _ => progress
  else progress

/-- Reads arguments that may be quoted: the arguments, and the kind of a quote that is not
    closed. -/
def read (cutting : Cutting) : Nat → List Char → Progress → List Item × Option String
  | 0, _, progress => ((progress.cut true).done.reverse, none)
  | _, [], progress => ((progress.cut true).done.reverse, none)
  | bound + 1, c :: rest, progress =>
    let add (c : Char) (progress : Progress) : Progress := ⟨progress.done, c :: progress.word, true⟩
    let isBlank : Bool := c = ' ' || c = '\t'
    if c = '\n' then
      let joins : Bool := !progress.begun && cutting = .words && progress.word = [' ']
      if joins then read cutting bound rest { progress with word := [] }
      else read cutting bound rest { progress.cut true with word := [] }
    else if isBlank && cutting = .words then
      let progress := progress.cut false
      read cutting bound rest { progress with word := if progress.done.isEmpty then [] else [' '] }
    else
      let progress := if progress.begun then progress else { progress with word := [] }
      if isBlank && !progress.begun then read cutting bound rest progress
      else if c = '\\' then
        match rest with
        | [] => ((progress.cut true).done.reverse, none)
        | d :: rest => read cutting bound rest (add d progress)
      else if c = '\'' || c = '"' then
        let inner := rest.takeWhile fun d => d ≠ c && d ≠ '\n'
        match rest.drop inner.length with
        | d :: after =>
          if d = c then
            read cutting bound after { progress with word := inner.reverse ++ progress.word, begun := true }
          else (progress.done.reverse, some (if c = '"' then "double" else "single"))
        | [] => (progress.done.reverse, some (if c = '"' then "double" else "single"))
      else read cutting bound rest (add c progress)

/-- The arguments that a text holds, and the kind of a quote that is not closed. -/
def items (cutting : Cutting) (text : List Char) : List Item × Option String :=
  match cutting with
  | .at_ delimiter => ((linesOf delimiter text).map fun part => (String.ofList part, true), none)
  | cutting => read cutting (text.length + 1) text ⟨[], [], false⟩

/-- How arguments are put together. -/
structure Batch where
  /-- The most arguments, lines and characters of a command. -/
  arguments : Option Nat
  lines : Option Nat
  size : Nat

/-- The arguments of the next command, and those that are left. -/
def next (batch : Batch) : Nat → Nat → Nat → List Item → List String × List Item
  | _, _, _, [] => ([], [])
  | count, lines, size, (text, endsLine) :: rest =>
    let full := batch.arguments.any (· ≤ count) || batch.lines.any (· ≤ lines) ||
      batch.size < size + text.length + 1
    if full then ([], (text, endsLine) :: rest)
    else
      let (found, left) := next batch (count + 1) (if endsLine then lines + 1 else lines) (size + text.length + 1) rest
      (text :: found, left)

/-- What runs commands: it keeps the status. -/
abbrev Running := StateT Nat Work

/-- Runs a command. -/
def runOne (given : Given) (arguments : List String) : Running Unit := do
  let setting ← (show Work Setting from MonadReader.read)
  if given.has "t" then Work.complain (" ".intercalate (arguments.map named) ++ "\n")
  let first : Act Unit := do
    if !given.has "a" then
      Act.close 0
      discard (Act.openFile "/dev/null" .input 0)
  let failed (cause : Cause) : Work Nat := do
    Work.warn (arguments.headD "" ++ ": " ++ cause.message)
    return Work.statusOf cause
  let name := arguments.headD ""
  match ← Work.spawn setting.image.environment arguments first failed with
  | some (.killed signal) => Work.fail 125 (name ++ ": terminated by signal " ++ digits signal)
  | some (.exited 0) => pure ()
  | some (.exited 255) => Work.fail 124 (name ++ ": exited with status 255; aborting")
  | some (.exited status) =>
    if status = 126 || status = 127 then Work.leave status
    set 123
  | none => set 123

/-- Runs a command for parts of the arguments, within a number of times. -/
def runAll (given : Given) (batch : Batch) (command : List String) : Nat → List Item → Running Unit
  | 0, _ => return ()
  | bound + 1, items => do
    if items.isEmpty then return ()
    let (arguments, rest) := next batch 0 0 ((command.map fun text => text.length + 1).foldl (· + ·) 0) items
    if arguments.isEmpty then Work.fail 1 "argument line too long"
    runOne given (command ++ arguments)
    runAll given batch command bound rest

/-- The character that a text tells as the end of arguments. -/
def delimiter? (text : String) : Option Char :=
  match text.toList with
  | [c] => some c
  | ['\\', c] => ("abfnrtv0\\".toList.zip "\x07\x08\x0c\n\x0d\t\x0b\x00\\".toList).lookup c
  | '\\' :: 'x' :: hex =>
    let values := hex.filterMap Bytes.hexValue?
    if values.length = hex.length && hex.length ≤ 2 then some (Char.ofNat (values.foldl (fun n d => 16 * n + d) 0)) else none
  | '\\' :: octal =>
    if octal.all (fun c => '0' ≤ c && c ≤ '7') then
      some (Char.ofNat ((octal.foldl (fun n c => 8 * n + (c.toNat - 48)) 0) % 256))
    else none
  | _ => none

/-- A number of at least one that is the argument of an option. -/
def count (letter text : String) : Work Nat := do
  match natural? text with
  | none => Work.misuse 1 ("invalid number \"" ++ text ++ "\" for -" ++ letter ++ " option")
  | some 0 => Work.misuse 1 ("value 0 for -" ++ letter ++ " option should be >= 1")
  | some n => return n

/-- What decides how much goes into a command: a text in whose place lines are put, the most
    lines, or the most arguments. -/
structure Manner where
  replaced : Option String
  lines : Option Nat
  arguments : Option Nat

/-- Reads what decides how much goes into a command; the last option counts. -/
def manner (options : List (String × String)) : Work Manner := do
  let mut found : Manner := ⟨none, none, none⟩
  for (key, value) in options do
    let clash (first second dropped : String) : Work Unit :=
      Work.warn ("warning: options " ++ first ++ " and " ++ second ++
        " are mutually exclusive, ignoring previous " ++ dropped ++ " value")
    match key with
    | "I" | "i" =>
      if found.arguments.isSome then clash "--max-args" "--replace/-I/-i" "--max-args"
      if found.lines.isSome then clash "--max-lines" "--replace/-I/-i" "--max-lines"
      found := ⟨some (if value = "" then "{}" else value), none, none⟩
    | "L" | "l" =>
      let n ← if value = "" then pure 1 else count key value
      if found.arguments.isSome then clash "--max-args" (if key = "L" then "-L" else "--max-lines/-l") "--max-args"
      if found.replaced.isSome then clash "--replace" (if key = "L" then "-L" else "--max-lines/-l") "--replace"
      found := ⟨none, some n, none⟩
    | "n" =>
      let n ← count "n" value
      if n = 1 && found.replaced.isSome then pure ()
      else
        if found.lines.isSome then clash "--max-lines" "--max-args/-n" "--max-lines"
        if found.replaced.isSome then clash "--replace" "--max-args/-n" "--replace"
        found := ⟨none, none, some n⟩
    | "P" | "s" => discard (if key = "P" && value = "0" then pure 0 else count key value)
    | _ => pure ()
  return found

end Supply

/-- Runs a command with arguments that are read. -/
def xargs (arguments : List String) : Work Nat := do
  let grammar := Grammar.plain
    "0/null a/arg-file: d/delimiter: E: e/eof? I: i/replace? L: l/max-lines? n/max-args: o/open-tty P/max-procs: p/interactive /process-slot-var: r/no-run-if-empty s/max-chars: t/verbose x/exit /show-limits"
    false 1
  let given ← grammar.given arguments
  let manner ← Supply.manner given.options
  let cutting : Supply.Cutting ← match given.lastOf? ["0", "d"] with
    | some "0" => pure (.at_ '\x00')
    | some _ =>
      let text := (given.last? "d").getD ""
      match Supply.delimiter? text with
      | some c => pure (.at_ c)
      | none => Work.fail 1 ("Invalid input delimiter specification " ++ text ++
          ": the delimiter must be either a single character or an escape sequence starting with \\.")
    | none => pure (if manner.replaced.isSome then .lines else .words)
  let text ← match given.last? "a" with
    | none => do
      match ← Work.input "-" with
      | .ok text => pure text
      | .error _ => pure ""
    | some path => do
      match ← Work.act (Act.readFile path) with
      | .ok bytes => pure (Raw.ofArray bytes)
      | .error cause => Work.fail 1 ("Cannot open input file " ++ quoted path ++ ": " ++ cause.message)
  let (items, unclosed) := Supply.items cutting text.toList
  let items := match cutting, given.lastOf? ["E", "e"] with
    | .at_ _, _ => items
    | _, some key =>
      let ending := (given.last? key).getD ""
      if ending = "" then items else items.takeWhile (·.1 ≠ ending)
    | _, none => items
  let command := if given.operands.isEmpty then ["echo"] else given.operands
  if let some kind := unclosed then
    Work.warn ("unmatched " ++ kind ++
      " quote; by default quotes are special to xargs unless you use the -0 option")
  let work : Supply.Running Unit := do
    match manner.replaced with
    | some mark =>
      for (text, _) in items do
        Supply.runOne given (command.take 1 ++ (command.drop 1).map fun argument => argument.replace mark text)
    | none =>
      let batch : Supply.Batch := ⟨manner.arguments, manner.lines, ((given.last? "s").bind natural?).getD 131072⟩
      if items.isEmpty then
        if !given.has "r" && unclosed.isNone then Supply.runOne given command
      else Supply.runAll given batch command (items.length + 1) items
  let ((), status) ← work.run 0
  return if unclosed.isSome then 1 else status

end Pkgset.Tool
