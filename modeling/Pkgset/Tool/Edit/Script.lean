import Pkgset.Text.Regex

/-!
# Scripts that edit lines

A script is a list of commands, each for the lines that its addresses choose. Commands in
braces are one command, which ends where the brace is closed.
-/

namespace Pkgset.Tool.Edit

/-- An expression as a script tells it: an empty one stands for the last that was used. -/
structure Pattern where
  regex : Option Regex
  ignoresCase : Bool
  manyLines : Bool

/-- What chooses a line. -/
inductive Address where
  | line (number : Nat)
  | last
  | step (first every : Nat)
  | pattern (pattern : Pattern)

/-- Where a range of lines ends. -/
inductive Stop where
  | address (address : Address)
  | more (count : Nat)
  | multiple (of : Nat)

/-- How letters are written from some point on, or only the next one. -/
inductive Casing where
  | plain | upper | lower
  deriving DecidableEq, Repr

/-- Part of what stands for a match. -/
inductive Part where
  | text (text : List Char)
  | group (number : Nat)
  | all (casing : Casing)
  | next (casing : Casing)

/-- What is put in place of matches, which of them are meant, and what is done then. -/
structure Substitution where
  pattern : Pattern
  parts : List Part
  everywhere : Bool
  number : Nat
  prints : Bool
  target : Option String

/-- What a command does. -/
inductive Deed where
  /-- Commands follow up to a place, where others go on. -/
  | block (stop : Nat)
  | blockEnd
  | label
  | number
  | append (text : String)
  | insert (text : String)
  | change (text : String)
  | jump (label : String)
  | jumpIfReplaced (label : String)
  | jumpUnlessReplaced (label : String)
  | delete
  | deleteFirst
  | fileName
  | get
  | getMore
  | hold
  | holdMore
  | exchange
  | list (width : Option Nat)
  | next
  | nextMore
  | print
  | printFirst
  | quit (status : Nat)
  | quitSilently (status : Nat)
  | readFile (path : String)
  | readLine (path : String)
  | substitute (substitution : Substitution)
  | write (path : String)
  | writeFirst (path : String)
  | translate (table : List (Char × Char))
  | clear

/-- A command with what chooses its lines. -/
structure Command where
  first : Option Address
  stop : Option Stop
  /-- A range that is open before the first line. -/
  fromStart : Bool
  negated : Bool
  deed : Deed

/-- A script: its commands, and where its labels are. -/
structure Script where
  commands : Array Command
  labels : List (String × Nat)

/-! ## Reading -/

/-- What is wrong with a script, and how much of it had been read. -/
structure Fault where
  place : Option Nat
  message : String

/-- How far a script has been read: what is left, how much has been read, the commands so
    far, the labels, and the blocks that are open. -/
structure Progress where
  rest : List Char
  used : Nat
  commands : Array Command
  labels : List (String × Nat)
  blocks : List Nat

/-- What reads a script. It knows whether expressions are extended. -/
abbrev Reading := ReaderT Bool (StateT Progress (Except Fault))

namespace Reading
variable {α : Type}

/-- Stops at what is wrong. -/
def fail (message : String) : Reading α := do
  let progress ← get
  throw ⟨some progress.used, message⟩

/-- The next character, which is taken off. -/
def take? : Reading (Option Char) := do
  let progress ← get
  match progress.rest with
  | [] => return none
  | c :: rest =>
    set { progress with rest, used := progress.used + 1 }
    return some c

/-- The next character, which stays. -/
def peek? : Reading (Option Char) := return (← get).rest.head?

/-- Takes characters off that pass a test. -/
def takeWhile (test : Char → Bool) : Reading (List Char) := do
  let progress ← get
  let taken := progress.rest.takeWhile test
  set { progress with rest := progress.rest.drop taken.length, used := progress.used + taken.length }
  return taken

/-- Whether a character is a blank within a line. -/
def isBlank (c : Char) : Bool := [' ', '\t', '\x0b', '\x0c', '\r'].contains c

/-- Whether a character is a blank or ends a line. -/
def isSpace (c : Char) : Bool := isBlank c || c = '\n'

/-- Skips the blanks within a line. -/
def skipBlanks : Reading Unit := discard (takeWhile isBlank)

/-- Reads a number, if there is one. -/
def number? : Reading (Option Nat) := do
  let digits ← takeWhile Char.isDigit
  return if digits.isEmpty then none else some (Decimal.ofDigits digits)

/-- Reads the end of a command. -/
def endCommand : Reading Unit := do
  skipBlanks
  match ← peek? with
  | none | some '}' | some '#' => return ()
  | some '\n' | some ';' => discard take?
  | some _ =>
    discard take?
    fail "extra characters after command"

/-- Reads what is left of a line. -/
def line : Reading String := do
  let text ← takeWhile (· ≠ '\n')
  discard take?
  return String.ofList text

/-- Reads the name of a label. -/
def label : Reading String := do
  skipBlanks
  let name ← takeWhile fun c => !isSpace c && c ≠ ';' && c ≠ '}'
  return String.ofList name

/-! ### Texts between marks -/

/-- The part of a text up to the bracket that ends a set of characters, and what is left. -/
def setWithin : Nat → List Char → Option (List Char × List Char)
  | 0, _ => none
  | bound + 1, text =>
    match text with
    | [] => none
    | '\n' :: _ => none
    | ']' :: rest => some ([']'], rest)
    | '[' :: mark :: rest =>
      if [':', '.', '='].contains mark then
        let name := rest.takeWhile (· ≠ mark)
        match rest.drop name.length with
        | c :: ']' :: rest => (setWithin bound rest).map fun (found, rest) => ('[' :: mark :: name ++ [c, ']'] ++ found, rest)
        | _ => (setWithin bound (mark :: rest)).map fun (found, rest) => ('[' :: found, rest)
      else (setWithin bound (mark :: rest)).map fun (found, rest) => ('[' :: found, rest)
    | '\\' :: 'n' :: rest => (setWithin bound rest).map fun (found, rest) => ('\n' :: found, rest)
    | c :: rest => (setWithin bound rest).map fun (found, rest) => (c :: found, rest)

/-- The set of characters behind a bracket, and what is left. -/
def set? (text : List Char) : Option (List Char × List Char) :=
  let (caret, rest) := match text with
    | '^' :: rest => (['^'], rest)
    | rest => ([], rest)
  let (bracket, rest) := match rest with
    | ']' :: rest => ([']'], rest)
    | rest => ([], rest)
  (setWithin (rest.length + 1) rest).map fun (found, rest) => (caret ++ bracket ++ found, rest)

/-- The text up to a mark, and what is left behind the mark. In an expression an escape may
    stand for the end of a line, and a set of characters may hold the mark. -/
def between (mark : Char) (ofRegex : Bool) : Nat → List Char → Option (List Char × List Char)
  | 0, _ => none
  | _, [] => none
  | bound + 1, c :: rest =>
    let keep (front : List Char) (rest : List Char) : Option (List Char × List Char) :=
      (between mark ofRegex bound rest).map fun (found, rest) => (front ++ found, rest)
    if c = mark then some ([], rest)
    else match c, rest with
      | '\n', _ => if ofRegex then none else keep ['\n'] rest
      | '\\', [] => none
      | '\\', d :: rest =>
        if d = 'n' && ofRegex then keep ['\n'] rest
        else if d = '\n' then keep (if ofRegex then ['\n'] else ['\\', '\n']) rest
        else if d = mark && (ofRegex || d ≠ '&') then keep [d] rest
        else keep ['\\', d] rest
      | '[', rest =>
        match if ofRegex then set? rest else none with
        | some (found, rest) => keep ('[' :: found) rest
        | none => keep ['['] rest
      | c, rest => keep [c] rest

/-- Reads the text up to a mark. -/
def textUntil (mark : Char) (ofRegex : Bool) (message : String) : Reading (List Char) := do
  let progress ← get
  match between mark ofRegex (progress.rest.length + 1) progress.rest with
  | some (found, rest) =>
    set { progress with rest, used := progress.used + (progress.rest.length - rest.length) }
    return found
  | none =>
    let taken := if ofRegex then (progress.rest.takeWhile (· ≠ '\n')).length else progress.rest.length
    set { progress with used := progress.used + taken }
    fail message

/-! ### Escapes -/

/-- The digits of a base at the start of a text, at most a number of them. -/
def digitsOf (isDigit : Char → Bool) (most : Nat) (text : List Char) : List Char := (text.take most).takeWhile isDigit

/-- The value of a hexadecimal digit. -/
def hexValue (c : Char) : Nat :=
  if c.isDigit then c.toNat - 48 else if 'a' ≤ c then c.toNat - 87 else c.toNat - 55

/-- The character that an escape stands for, and what is left; the backslash has been read. -/
def escape? (text : List Char) : Option (Char × List Char) :=
  let numeric (base most : Nat) (isDigit : Char → Bool) (rest : List Char) : Option (Char × List Char) :=
    let digits := digitsOf isDigit most rest
    if digits.isEmpty then none
    else some (Char.ofNat ((digits.foldl (fun n c => base * n + hexValue c) 0) % 256), rest.drop digits.length)
  match text with
  | 'a' :: rest => some ('\x07', rest)
  | 'f' :: rest => some ('\x0c', rest)
  | 'r' :: rest => some ('\r', rest)
  | 't' :: rest => some ('\t', rest)
  | 'v' :: rest => some ('\x0b', rest)
  | 'c' :: c :: rest => some (Char.ofNat (c.toUpper.toNat ^^^ 64), rest)
  | 'd' :: rest => numeric 10 3 Char.isDigit rest
  | 'o' :: rest => numeric 8 3 (fun c => '0' ≤ c && c ≤ '7') rest
  | 'x' :: rest => numeric 16 2 (fun c => c.isDigit || ('a' ≤ c && c ≤ 'f') || ('A' ≤ c && c ≤ 'F')) rest
  | _ => none

/-- The characters that mean something in expressions. -/
def specials : List Char := "*.[]^$\\/+?\x7b\x7d()|".toList

/-- An expression in which the escapes of characters have been replaced. -/
def plainRegex : Nat → List Char → List Char
  | 0, _ => []
  | _, [] => []
  | bound + 1, '\\' :: rest =>
    match escape? rest with
    | some (c, rest) => (if specials.contains c then ['\\', c] else [c]) ++ plainRegex bound rest
    | none =>
      match rest with
      | c :: rest => '\\' :: c :: plainRegex bound rest
      | [] => ['\\']
  | bound + 1, c :: rest => c :: plainRegex bound rest

/-- The pattern of a text with flags. -/
def patternOf (text : List Char) (ignoresCase manyLines : Bool) : Reading Pattern := do
  if text.isEmpty then return ⟨none, ignoresCase, manyLines⟩
  match Regex.ofText (← read) (String.ofList (plainRegex (text.length + 1) text)) with
  | .ok regex => return ⟨some regex, ignoresCase, manyLines⟩
  | .error fault => fail fault.message

/-- The parts of what stands for a match, after some text. -/
def partsOf : Nat → List Char → List Char → List Part
  | 0, _, _ => []
  | bound + 1, before, text =>
    let done (part : Part) (rest : List Char) : List Part :=
      (if before.isEmpty then [] else [.text before.reverse]) ++ part :: partsOf bound [] rest
    match text with
    | [] => if before.isEmpty then [] else [.text before.reverse]
    | '&' :: rest => done (.group 0) rest
    | '\\' :: rest =>
      match escape? rest with
      | some (c, rest) => partsOf bound (c :: before) rest
      | none =>
        match rest with
        | 'n' :: rest => partsOf bound ('\n' :: before) rest
        | 'U' :: rest => done (.all .upper) rest
        | 'L' :: rest => done (.all .lower) rest
        | 'E' :: rest => done (.all .plain) rest
        | 'u' :: rest => done (.next .upper) rest
        | 'l' :: rest => done (.next .lower) rest
        | c :: rest => if c.isDigit then done (.group (c.toNat - 48)) rest else partsOf bound (c :: before) rest
        | [] => partsOf bound ('\\' :: before) []
    | c :: rest => partsOf bound (c :: before) rest

/-! ### Commands -/

/-- Reads flags of an expression that chooses lines. -/
def addressFlags : Nat → Bool → Bool → Reading (Bool × Bool)
  | 0, ignoresCase, manyLines => return (ignoresCase, manyLines)
  | bound + 1, ignoresCase, manyLines => do
    match ← peek? with
    | some 'I' =>
      discard take?
      addressFlags bound true manyLines
    | some 'M' =>
      discard take?
      addressFlags bound ignoresCase true
    | _ => return (ignoresCase, manyLines)

/-- Reads an address, if there is one. -/
def address? : Reading (Option Address) := do
  let pattern (mark : Char) : Reading (Option Address) := do
    let text ← textUntil mark true "unterminated address regex"
    let (ignoresCase, manyLines) ← addressFlags 10 false false
    return some (.pattern (← patternOf text ignoresCase manyLines))
  match ← peek? with
  | some '/' =>
    discard take?
    pattern '/'
  | some '\\' =>
    discard take?
    match ← take? with
    | some mark => pattern mark
    | none => fail "unexpected end of script"
  | some '$' =>
    discard take?
    return some .last
  | some c =>
    if !c.isDigit then return none
    let first := (← number?).getD 0
    skipBlanks
    if (← peek?) != some '~' then return some (.line first)
    discard take?
    skipBlanks
    let every := (← number?).getD 0
    return some (if every = 0 then .line first else .step first every)
  | none => return none

/-- Reads where a range ends. -/
def stop : Reading Stop := do
  let counted (make : Nat → Stop) : Reading Stop := do
    discard take?
    return make ((← number?).getD 0)
  match ← peek? with
  | some '+' => counted .more
  | some '~' => counted .multiple
  | _ =>
    match ← address? with
    | some address => return .address address
    | none =>
      discard take?
      fail "unexpected \x60,'"

/-- Reads the text of a command that shows one. -/
def shownText : Reading String := do
  skipBlanks
  if (← peek?).isNone then fail "expected \\ after \x60a', \x60c' or \x60i'"
  if (← peek?) = some '\\' then
    discard take?
    let blanks ← takeWhile isBlank
    if (← peek?) = some '\n' then discard take?
    else modify fun progress =>
      { progress with rest := blanks ++ progress.rest, used := progress.used - blanks.length }
  if (← peek?).isNone then return ""
  let progress ← get
  let (text, rest) := lines (progress.rest.length + 1) progress.rest
  set { progress with rest, used := progress.used + (progress.rest.length - rest.length) }
  return String.ofList text ++ "\n"
where
  /-- The text up to the end of a line that is not escaped. -/
  lines : Nat → List Char → List Char × List Char
    | 0, rest => ([], rest)
    | _, [] => ([], [])
    | _, '\n' :: rest => ([], rest)
    | bound + 1, '\\' :: rest =>
      match escape? rest, rest with
      | some (c, rest), _ =>
        let (found, rest) := lines bound rest
        (c :: found, rest)
      | none, c :: rest =>
        let (found, rest) := lines bound rest
        (c :: found, rest)
      | none, [] => ([], [])
    | bound + 1, c :: rest =>
      let (found, rest) := lines bound rest
      (c :: found, rest)

/-- Reads the path of a file. -/
def path : Reading String := do
  skipBlanks
  match ← peek? with
  | none | some '\n' => fail "missing filename in r/R/w/W commands"
  | some _ => line

/-- The flags of a substitution. -/
structure Flags where
  everywhere : Bool
  number : Option Nat
  prints : Bool
  ignoresCase : Bool
  manyLines : Bool
  target : Option String

/-- Reads the flags of a substitution. -/
def flags : Nat → Flags → Reading Flags
  | 0, found => return found
  | bound + 1, found => do
    if [none, some '\x7d', some '#'].contains (← peek?) then return found
    match ← take? with
    | none | some '\n' | some ';' => return found
    | some 'g' =>
      if found.everywhere then fail "multiple \x60g' options to \x60s' command"
      flags bound { found with everywhere := true }
    | some 'p' =>
      if found.prints then fail "multiple \x60p' options to \x60s' command"
      flags bound { found with prints := true }
    | some 'i' | some 'I' => flags bound { found with ignoresCase := true }
    | some 'm' | some 'M' => flags bound { found with manyLines := true }
    | some 'w' => return { found with target := some (← path) }
    | some c =>
      if isBlank c then flags bound found
      else if c.isDigit then
        let digits ← takeWhile Char.isDigit
        if found.number.isSome then fail "multiple number options to \x60s' command"
        let number := Decimal.ofDigits (c :: digits)
        if number = 0 then fail "number option to \x60s' command may not be zero"
        flags bound { found with number := some number }
      else fail "unknown option to \x60s'"

/-- Reads a substitution. -/
def substitution : Reading Substitution := do
  let wrong := "unterminated \x60s' command"
  match ← take? with
  | none | some '\n' | some '\\' => fail wrong
  | some mark =>
    let text ← textUntil mark true wrong
    let replacement ← textUntil mark false wrong
    let progress ← get
    let flags ← flags (progress.rest.length + 1) ⟨false, none, false, false, false, none⟩
    let pattern ← patternOf text flags.ignoresCase flags.manyLines
    let parts := partsOf (replacement.length + 1) [] replacement
    for part in parts do
      if let .group number := part then
        if pattern.regex.any fun regex => decide (Regex.groupCount regex < number) then
          fail ("invalid reference \\" ++ String.ofList (Decimal.digits number) ++ " on \x60s' command's RHS")
    return ⟨pattern, parts, flags.everywhere, flags.number.getD 1, flags.prints, flags.target⟩

/-- The characters of one side of a translation. -/
def plainCharacters : List Char → List Char
  | '\\' :: '\\' :: rest => '\\' :: plainCharacters rest
  | '\\' :: 'n' :: rest => '\n' :: plainCharacters rest
  | '\\' :: 't' :: rest => '\t' :: plainCharacters rest
  | '\\' :: '\n' :: rest => '\n' :: plainCharacters rest
  | c :: rest => c :: plainCharacters rest
  | [] => []

/-- Reads a translation. -/
def translation : Reading (List (Char × Char)) := do
  let wrong := "unterminated \x60y' command"
  match ← take? with
  | none | some '\n' | some '\\' => fail wrong
  | some mark =>
    let old := plainCharacters (← textUntil mark false wrong)
    let new := plainCharacters (← textUntil mark false wrong)
    if old.length ≠ new.length then fail "strings for \x60y' command are different lengths"
    endCommand
    return old.zip new

/-- Reads a status behind a command. -/
def status : Reading Nat := do
  skipBlanks
  let found := (← number?).getD 0
  endCommand
  return found

/-- Reads what a command does. -/
def deed (c : Char) (count : Nat) : Reading Deed := do
  let plain (deed : Deed) : Reading Deed := do
    endCommand
    return deed
  match c with
  | '=' => plain .number
  | 'a' => return .append (← shownText)
  | 'i' => return .insert (← shownText)
  | 'c' => return .change (← shownText)
  | 'b' => jump .jump
  | 't' => jump .jumpIfReplaced
  | 'T' => jump .jumpUnlessReplaced
  | 'd' => plain .delete
  | 'D' => plain .deleteFirst
  | 'F' => plain .fileName
  | 'g' => plain .get
  | 'G' => plain .getMore
  | 'h' => plain .hold
  | 'H' => plain .holdMore
  | 'x' => plain .exchange
  | 'l' =>
    skipBlanks
    let width ← number?
    plain (.list width)
  | 'n' => plain .next
  | 'N' => plain .nextMore
  | 'p' => plain .print
  | 'P' => plain .printFirst
  | 'q' => if 1 < count then fail "command only uses one address" else return .quit (← status)
  | 'Q' => if 1 < count then fail "command only uses one address" else return .quitSilently (← status)
  | 'r' => return .readFile (← path)
  | 'R' => return .readLine (← path)
  | 's' => return .substitute (← substitution)
  | 'v' =>
    discard line
    return .label
  | 'w' => return .write (← path)
  | 'W' => return .writeFirst (← path)
  | 'y' => return .translate (← translation)
  | 'z' => plain .clear
  | c => fail ("unknown command: \x60" ++ c.toString ++ "'")
where
  /-- Reads where a command goes on. -/
  jump (make : String → Deed) : Reading Deed := do
    let name ← label
    endCommand
    return make name

/-- Reads the commands of a script, within a number of them. -/
def commands : Nat → Reading Unit
  | 0 => return ()
  | bound + 1 => do
    discard (takeWhile fun c => isSpace c || c = ';')
    if (← peek?).isNone then return ()
    if let some c ← peek? then
      if c = '+' || c = '~' then
        discard take?
        discard number?
        fail "invalid usage of +N or ~N as first address"
    let first ← address?
    skipBlanks
    let stop ← if first.isSome && (← peek?) = some ',' then do
        discard take?
        skipBlanks
        pure (some (← stop))
      else pure none
    let isZero : Bool := match first with
      | some (.line 0) => true
      | _ => false
    let byPattern : Bool := match stop with
      | some (.address (.pattern _)) => true
      | _ => false
    skipBlanks
    let count := (if first.isSome then 1 else 0) + (if stop.isSome then 1 else 0)
    let negated ← if (← peek?) = some '!' then do
        discard take?
        skipBlanks
        if (← peek?) = some '!' then
          discard take?
          fail "multiple \x60!'s"
        pure true
      else pure false
    let some c ← take? | fail "missing command"
    if isZero && !byPattern then fail "invalid usage of line address 0"
    let place := (← get).commands.size
    let add (deed : Deed) : Reading Unit := modify fun progress =>
      { progress with commands := progress.commands.push ⟨first, stop, isZero, negated, deed⟩ }
    match c with
    | '#' =>
      if 0 < count then fail "comments don't accept any addresses"
      discard line
    | ':' =>
      if 0 < count then fail ": doesn't want any addresses"
      let name ← label
      if name = "" then fail "\":\" lacks a label"
      modify fun progress => { progress with labels := (name, place) :: progress.labels }
      add .label
    | '{' =>
      modify fun progress => { progress with blocks := place :: progress.blocks }
      add (.block 0)
    | '}' =>
      if 0 < count then fail "\x7d doesn't want any addresses"
      match (← get).blocks with
      | [] => fail "unexpected \x60\x7d'"
      | start :: blocks =>
        modify fun progress => { progress with
          blocks
          commands := progress.commands.modify start fun command => { command with deed := .block place } }
        add .blockEnd
        endCommand
    | c => add (← deed c count)
    commands bound

end Reading

/-- The script that a text is, or what is wrong with it. -/
def Script.ofText? (extended : Bool) (text : String) : Except Fault Script := do
  let start : Progress := ⟨text.toList, 0, #[], [], []⟩
  let (_, progress) ← ((Reading.commands (text.length + 1)).run extended).run start
  if !progress.blocks.isEmpty then throw ⟨some 0, "unmatched \x60\x7b'"⟩
  for command in progress.commands.toList do
    match command.deed with
    | .jump name | .jumpIfReplaced name | .jumpUnlessReplaced name =>
      if name ≠ "" && (progress.labels.lookup name).isNone then
        throw ⟨none, "can't find label for jump to \x60" ++ name ++ "'"⟩
    | _ => pure ()
  return ⟨progress.commands, progress.labels⟩

end Pkgset.Tool.Edit
