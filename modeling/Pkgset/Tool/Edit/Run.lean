import Pkgset.Tool.Edit.Script
import Pkgset.Tool.Paths
import Pkgset.Tool.Intake

/-!
# Editing lines by a script

Each line of the input goes through the commands of a script and is shown at the end,
unless a command wants something else. A second text is held from line to line.
-/

namespace Pkgset.Tool.Edit
open Kernel

/-- How lines are edited. -/
structure Setting where
  script : Script
  silent : Bool
  separate : Bool
  /-- Files are changed in place; what they were is kept under a name with a suffix. -/
  inPlace : Option String
  ending : Char
  width : Nat

/-- What is shown behind a line. -/
inductive Pending where
  | text (text : String)
  | file (path : String)
  | line (path : String)

/-- What is known while lines are edited. -/
structure State where
  pattern : List Char
  /-- Whether the line is ended when it is shown. -/
  ended : Bool
  hold : List Char
  holdEnded : Bool
  number : Nat
  replaced : Bool
  pending : List Pending
  intake : Option Intake
  path : String
  rest : List String
  /-- The files that lines are written to, each with whether its last line is open. -/
  targets : List (String × Nat × Bool)
  /-- The files of which single lines are read. -/
  sources : List (String × Intake)
  /-- Whether the last line that was shown is open. -/
  isOpen : Bool
  /-- What a file that is changed in place becomes. -/
  becomes : String
  last : Option Pattern
  ranges : List (Nat × Option Nat)
  closed : List Nat
  failed : Nat

/-- What edits lines. -/
abbrev Editing := ReaderT Setting (StateT State Work)

/-- What follows when the commands have been carried out. -/
inductive Next where
  | shown | dropped | again
  | quit (status : Nat) (shows : Bool)

namespace Editing

/-! ## Output -/

/-- Writes to the standard output, or to the file that is changed in place. -/
def put (text : String) : Editing Unit := do
  let setting ← read
  if setting.inPlace.isSome then modify fun state => { state with becomes := state.becomes ++ text }
  else Work.put text

/-- Ends the last line if it is open. -/
def close : Editing Unit := do
  let state ← get
  if state.isOpen then
    let setting ← read
    put setting.ending.toString
    modify fun state => { state with isOpen := false }

/-- Shows a line, which is ended if the pattern space is. -/
def putLine (line : List Char) : Editing Unit := do
  close
  let ended := (← get).ended
  let ending := (← read).ending.toString
  put (String.ofList line ++ (if ended then ending else ""))
  modify fun state => { state with isOpen := !ended }

/-- Writes a line to a file of the script. -/
def writeTo (path : String) (line : List Char) : Editing Unit := do
  let state ← get
  let ending := (← read).ending.toString
  match path, state.targets.lookup path with
  | "/dev/stdout", _ => putLine line
  | "/dev/stderr", _ => Work.complain (String.ofList line ++ ending)
  | _, some (descriptor, isOpen) =>
    let text := (if isOpen then ending else "") ++ String.ofList line ++ (if state.ended then ending else "")
    discard (Work.act (Act.write descriptor (Raw.toArray text)))
    modify fun state => { state with targets := state.targets.map fun (other, target) =>
      (other, if other = path then (descriptor, !state.ended) else target) }
  | _, none => pure ()

/-- Shows what is to be shown behind a line. -/
def putPending : Editing Unit := do
  let pending := (← get).pending
  modify fun state => { state with pending := [] }
  for item in pending do
    match item with
    | .text text =>
      close
      put text
    | .file path =>
      if let .ok text ← Work.input path then
        if text ≠ "" then
          close
          put text
          modify fun state => { state with isOpen := false }
    | .line path =>
      let source ← match (← get).sources.lookup path with
        | some intake => pure (some intake)
        | none => do pure ((← Intake.start path).toOption)
      if let some intake := source then
        let (line, intake) ← intake.line (← read).ending
        modify fun state => { state with sources := (path, intake) :: state.sources.filter (·.1 ≠ path) }
        if let some line := line then
          close
          put (String.ofList (bare (← read).ending line))
          put (← read).ending.toString

/-! ## Input -/

/-- Puts what a file has become in its place. -/
def replaceFile : Editing Unit := do
  let state ← get
  if let some suffix := (← read).inPlace then
    if state.intake.isSome then
      let path := state.path
      let folder := folderOf path
      let fresh := within folder ("sed" ++ String.ofList (scrambled 6 (state.number + state.becomes.length)))
      let mode := match ← Work.inspect true path with
        | .ok (_, inode) => inode.mode
        | .error _ => 0o644
      if let .ok descriptor ← Work.act (Act.openFile fresh .fresh 0o600) then
        discard (Work.act (Act.write descriptor (Raw.toArray state.becomes)))
        Work.act (Act.close descriptor)
        discard (Work.call (Syscall.setMode · fresh mode))
        if suffix ≠ "" then
          let name := lastName path
          let kept := if suffix.contains '*' then suffix.replace "*" name else name ++ suffix
          discard (Work.call (Syscall.rename · path (if kept.contains '/' then kept else within folder kept)))
        discard (Work.call (Syscall.rename · fresh path))
    modify fun state => { state with becomes := "", isOpen := false }

/-- Notes that something has gone wrong. -/
def fault (status : Nat) (text : String) : Editing Unit := do
  Work.warn text
  modify fun state => { state with failed := status }

/-- Starts to read the next file that can be read, within a number of them. -/
def openNext : Nat → Editing Bool
  | 0 => return false
  | bound + 1 => do
    let state ← get
    match state.rest with
    | [] => return false
    | path :: rest =>
      set { state with rest }
      let setting ← read
      let inPlace := setting.inPlace.isSome
      let isFolder ← if inPlace then Work.isFolder path else pure false
      if isFolder then
        fault 4 ("couldn't edit " ++ path ++ ": not a regular file")
        openNext bound
      else
        match ← Intake.start path with
        | .error cause =>
          fault 2 ("can't read " ++ path ++ ": " ++ cause.message)
          openNext bound
        | .ok intake =>
          modify fun state => { state with
            intake := some intake
            path
            number := if setting.separate then 0 else state.number
            closed := if setting.separate then [] else state.closed }
          return true

/-- Ends reading a file. -/
def closeFile : Editing Unit := do
  if let some intake := (← get).intake then
    intake.stop
    if let some cause := intake.fault then
      let path := (← get).path
      fault 4 ("read error on " ++ (if path = "-" then "stdin" else path) ++ ": " ++ cause.message)
      if (← read).inPlace.isNone then Work.leave 4
    replaceFile
  modify fun state => { state with intake := none }

/-- Reads the next line, within a number of files. -/
def nextLine : Nat → Editing (Option (List Char))
  | 0 => return none
  | bound + 1 => do
    match (← get).intake with
    | none => if ← openNext ((← get).rest.length + 1) then nextLine bound else return none
    | some intake =>
      let (line, intake) ← intake.line (← read).ending
      modify fun state => { state with intake := some intake }
      match line with
      | some line =>
        let ending := (← read).ending
        modify fun state => { state with number := state.number + 1, ended := line.getLast? = some ending }
        return some (bare ending line)
      | none =>
        closeFile
        nextLine bound

/-- Reads the next line of all files. -/
def advance : Editing (Option (List Char)) := do nextLine (2 * (← get).rest.length + 3)

/-- Whether one of some files holds anything. -/
def anyHolds : List String → Work Bool
  | [] => return false
  | path :: rest => do
    match ← Intake.start path with
    | .error _ => anyHolds rest
    | .ok intake =>
      let intake ← intake.more
      intake.stop
      if intake.waiting.isEmpty then anyHolds rest else return true

/-- Whether no line follows. -/
def isLast : Editing Bool := do
  let state ← get
  let here ← match state.intake with
    | none => pure true
    | some intake => do
      let intake ← intake.moreUntil (!·.isEmpty) 2
      modify fun state => { state with intake := some intake }
      pure intake.waiting.isEmpty
  if !here then return false
  if (← read).separate then return true
  return !(← anyHolds state.rest)

/-! ## Addresses -/

/-- How the pattern space is matched. -/
def matchingOf (pattern : Pattern) (text : List Char) : Regex.Matching :=
  ⟨text.toArray, pattern.ignoresCase, true, true, pattern.manyLines⟩

/-- The expression of a pattern; an empty one is the last that was used. -/
def regexOf (pattern : Pattern) : Editing (Regex × Pattern) := do
  match pattern.regex with
  | some regex =>
    modify fun state => { state with last := some pattern }
    return (regex, pattern)
  | none =>
    match (← get).last with
    | some last => return (last.regex.getD .nothing, last)
    | none => Work.fail 1 "-e expression #1, char 0: no previous regular expression"

/-- Whether an address chooses the line. -/
def chosen (address : Address) : Editing Bool := do
  match address with
  | .line number => return decide ((← get).number = number)
  | .last => isLast
  | .step first every =>
    let number := (← get).number
    return decide (first ≤ number) && (number - first) % every = 0
  | .pattern pattern =>
    let (regex, pattern) ← regexOf pattern
    return (Regex.search (matchingOf pattern (← get).pattern) regex 0).isSome

/-- Opens the range of a command up to a line, if its end is known. -/
def openRange (place : Nat) (stop : Option Nat) : Editing Unit :=
  modify fun state => { state with ranges := (place, stop) :: state.ranges.filter (·.1 ≠ place) }

/-- Closes the range of a command. -/
def closeRange (place : Nat) : Editing Unit :=
  modify fun state => { state with ranges := state.ranges.filter (·.1 ≠ place), closed := place :: state.closed }

/-- Whether the addresses of a command choose the line. -/
def selects (place : Nat) (command : Command) : Editing Bool := do
  match command.first, command.stop with
  | none, _ => return true
  | some first, none => chosen first
  | some first, some stop =>
    let state ← get
    let number := state.number
    let started := command.fromStart && !state.closed.contains place
    match if started then some none else state.ranges.lookup place with
    | none =>
      let isNumber : Bool := match first with
        | .line _ => true
        | _ => false
      if isNumber && state.closed.contains place then return false
      if !(← chosen first) then return false
      match stop with
      | .more count => if 0 < count then openRange place (some (number + count))
      | .multiple of => if 0 < of && number % of ≠ 0 then openRange place (some ((number / of + 1) * of))
      | .address (.line last) => if number < last then openRange place (some last)
      | .address _ => openRange place none
      return true
    | some (some last) =>
      if last ≤ number then closeRange place
      return decide (number ≤ last)
    | some none =>
      match stop with
      | .address address => if ← chosen address then closeRange place
      | _ => closeRange place
      return true

/-! ## Substitutions -/

/-- Writes parts for a match, with letters as the parts ask for. -/
def written (matching : Regex.Matching) (groups : Groups) (parts : List Part) : List Char :=
  let cased (casing : Casing) (text : List Char) : List Char := match casing with
    | .plain => text
    | .upper => text.map Char.toUpper
    | .lower => text.map Char.toLower
  let (found, _, _) := parts.foldl (fun (found, all, next) part =>
    let add (text : List Char) : List Char × Casing × Option Casing :=
      let text := cased all text
      match next, text with
      | some casing, c :: rest => (found ++ cased casing [c] ++ rest, all, none)
      | next, text => (found ++ text, all, next)
    match part with
    | .text text => add text
    | .group number => add ((Regex.part? matching groups number).getD "").toList
    | .all casing => (found, casing, if casing = .plain then none else next)
    | .next casing => (found, all, some casing)) (([] : List Char), Casing.plain, (none : Option Casing))
  found

/-- Replaces the matches of a text from a place on, within a number of them: the text that
    has been made, and whether something has been replaced. -/
def replaced (substitution : Substitution) (matching : Regex.Matching) (regex : Regex) :
    Nat → Nat → Nat → Option Nat → List Char × Bool
  | 0, _, _, _ => ([], false)
  | bound + 1, place, count, stop =>
    let text := matching.text
    let size := text.size
    let rest (place : Nat) : List Char := (text.extract place size).toList
    match if size < place then none else Regex.search matching regex place with
    | none => (rest place, false)
    | some groups =>
      let (start, last) := (groups.lookup 0).getD (place, place)
      let before := (text.extract place start).toList
      let one := (text.extract last (last + 1)).toList
      if start = last && stop = some start then
        let (found, any) := replaced substitution matching regex bound (last + 1) count none
        (before ++ one ++ found, any)
      else if count + 1 < substitution.number then
        let here := (text.extract start last).toList
        if start = last then
          let (found, any) := replaced substitution matching regex bound (last + 1) (count + 1) none
          (before ++ one ++ found, any)
        else
          let (found, any) := replaced substitution matching regex bound last (count + 1) (some last)
          (before ++ here ++ found, any)
      else
        let here := written matching groups substitution.parts
        if !substitution.everywhere then (before ++ here ++ rest last, true)
        else if start = last then
          let (found, _) := replaced substitution matching regex bound (last + 1) (count + 1) none
          (before ++ here ++ one ++ found, true)
        else
          let (found, _) := replaced substitution matching regex bound last (count + 1) (some last)
          (before ++ here ++ found, true)

/-! ## Commands -/

/-- A text whose characters can all be seen, in lines of a width. -/
def listed (width : Nat) (text : List Char) : String :=
  let marks := text.map fun c =>
    if c = '\\' then "\\\\"
    else if c = '\n' then "\\n"
    else if 32 ≤ c.toNat && c.toNat < 127 then c.toString
    else unseen c
  let (shown, _) := marks.foldl (fun (shown, column) mark =>
    if 0 < width && width - 1 < column + mark.length then (shown ++ "\\\n" ++ mark, mark.length)
    else (shown ++ mark, column + mark.length)) ("", 0)
  shown ++ "$\n"

/-- Carries out the commands from a place on, within a number of them. -/
def run : Nat → Nat → Editing Next
  | 0, _ => return .shown
  | bound + 1, place => do
    let setting ← read
    match setting.script.commands[place]? with
    | none => return .shown
    | some command =>
      let isChosen := (← selects place command) != command.negated
      if !isChosen then
        match command.deed with
        | .block stop => run bound (stop + 1)
        | _ => run bound (place + 1)
      else
        let further : Editing Next := run bound (place + 1)
        let go (name : String) : Editing Next :=
          if name = "" then return .shown else run bound ((setting.script.labels.lookup name).getD 0)
        let state ← get
        let front := state.pattern.takeWhile (· ≠ setting.ending)
        match command.deed with
        | .block _ | .blockEnd | .label => further
        | .number =>
          close
          put (digits state.number ++ "\n")
          further
        | .append text =>
          set { state with pending := state.pending ++ [Pending.text text] }
          further
        | .insert text =>
          close
          put text
          further
        | .change text =>
          let inRange := (state.ranges.any (·.1 = place)) && !command.negated
          if !inRange then
            close
            put text
          return .dropped
        | .jump name => go name
        | .jumpIfReplaced name =>
          if state.replaced then
            set { state with replaced := false }
            go name
          else further
        | .jumpUnlessReplaced name =>
          if state.replaced then
            set { state with replaced := false }
            further
          else go name
        | .delete => return .dropped
        | .deleteFirst =>
          if state.pattern.contains setting.ending then
            set { state with pattern := state.pattern.drop (front.length + 1) }
            return .again
          else return .dropped
        | .fileName =>
          close
          put (state.path ++ "\n")
          further
        | .get =>
          set { state with pattern := state.hold, ended := state.holdEnded }
          further
        | .getMore =>
          set { state with pattern := state.pattern ++ setting.ending :: state.hold, ended := state.holdEnded }
          further
        | .hold =>
          set { state with hold := state.pattern, holdEnded := state.ended }
          further
        | .holdMore =>
          set { state with hold := state.hold ++ setting.ending :: state.pattern, holdEnded := state.ended }
          further
        | .exchange =>
          set { state with
            pattern := state.hold, ended := state.holdEnded, hold := state.pattern, holdEnded := state.ended }
          further
        | .list width =>
          close
          put (listed (width.getD setting.width) state.pattern)
          further
        | .next =>
          if ← isLast then return .quit 0 true
          if !setting.silent then putLine state.pattern
          putPending
          match ← advance with
          | none => return .quit 0 false
          | some line =>
            modify fun state => { state with pattern := line }
            further
        | .nextMore =>
          if ← isLast then return .quit 0 true
          putPending
          match ← advance with
          | none => return .quit 0 true
          | some line =>
            modify fun state => { state with pattern := state.pattern ++ setting.ending :: line }
            further
        | .print =>
          putLine state.pattern
          further
        | .printFirst =>
          close
          put (String.ofList front ++ setting.ending.toString)
          further
        | .quit status => return .quit status true
        | .quitSilently status => return .quit status false
        | .readFile path =>
          set { state with pending := state.pending ++ [Pending.file path] }
          further
        | .readLine path =>
          set { state with pending := state.pending ++ [Pending.line path] }
          further
        | .substitute substitution =>
          let (regex, pattern) ← regexOf substitution.pattern
          let matching := matchingOf pattern state.pattern
          let (text, any) := replaced substitution matching regex (state.pattern.length + 2) 0 0 none
          if any then
            modify fun state => { state with pattern := text, replaced := true }
            if substitution.prints then putLine text
            if let some path := substitution.target then writeTo path text
          further
        | .write path =>
          writeTo path state.pattern
          further
        | .writeFirst path =>
          writeTo path front
          further
        | .translate table =>
          set { state with pattern := state.pattern.map fun c => (table.lookup c).getD c }
          further
        | .clear =>
          set { state with pattern := [] }
          further

/-- Takes line after line through the script, within a number of them. -/
def cycle : Nat → Bool → Editing Nat
  | 0, _ => return 0
  | bound + 1, again => do
    let ready ← if again then pure true else do
      match ← advance with
      | none => pure false
      | some line =>
        modify fun state => { state with pattern := line, replaced := false }
        pure true
    if !ready then return 0
    let next ← run lineLimit 0
    let silent := (← read).silent
    match next with
    | .shown =>
      if !silent then putLine (← get).pattern
      putPending
      cycle bound false
    | .dropped =>
      putPending
      cycle bound false
    | .again =>
      putPending
      cycle bound true
    | .quit status shows =>
      if shows && !silent then putLine (← get).pattern
      if shows then putPending
      return status

end Editing

/-- The files that a script writes to. -/
def Script.targets (script : Script) : List String :=
  (script.commands.toList.filterMap fun command =>
    match command.deed with
    | .write path | .writeFirst path => some path
    | .substitute substitution => substitution.target
    | _ => none).eraseDups.filter fun path => path ≠ "/dev/stdout" && path ≠ "/dev/stderr"

/-- The name of the place in the pieces of a script at which something is wrong. -/
def placeName (place : Nat) : Nat → List (Option String × String) → String
  | _, [] => "-e expression #1, char 0"
  | number, (file, text) :: rest =>
    if place ≤ text.length || rest.isEmpty then
      match file with
      | some path => "file " ++ path ++ " line " ++ digits (((text.take place).toString.toList.count '\n') + 1)
      | none => "-e expression #" ++ digits number ++ ", char " ++ digits place
    else placeName (place - text.length - 1) (number + 1) rest

end Edit

open Kernel

/-- Edits lines by a script. -/
def sed (arguments : List String) : Work Nat := do
  let usage (name : String) : String :=
    "Usage: " ++ name ++ " [OPTION]... \x7bscript-only-if-no-other-script\x7d [input-file]...\n"
  let grammar : Grammar := { Grammar.plain
      "n/quiet n/silent /debug e/expression: f/file: /follow-symlinks i/in-place? l/line-length: /posix E/regexp-extended r/regexp-extended s/separate /sandbox u/unbuffered z/null-data"
      true 1 with advice := usage }
  let given ← grammar.given arguments
  let told := given.options.filter fun (key, _) => key = "e" || key = "f"
  let (pieces, paths) ← if !told.isEmpty then do
      let mut pieces : List (Option String × String) := []
      for (key, value) in told do
        if key = "e" then pieces := pieces ++ [(none, value)]
        else
          match ← Work.input value with
          | .ok text => pieces := pieces ++ [(some value, String.ofList (bare '\n' text.toList))]
          | .error cause => Work.fail 4 ("couldn't open file " ++ value ++ ": " ++ cause.message)
      pure (pieces, given.operands)
    else match given.operands with
      | text :: paths => pure ([(none, text)], paths)
      | [] =>
        Work.complain (usage (← Work.name))
        Work.leave 1
  let text := "\n".intercalate (pieces.map (·.2))
  let extended := given.has "E" || given.has "r"
  match Edit.Script.ofText? extended text with
  | .error fault =>
    match fault.place with
    | none => Work.fail 1 fault.message
    | some place => Work.fail 1 (Edit.placeName place 1 pieces ++ ": " ++ fault.message)
  | .ok script =>
    let inPlace := given.last? "i"
    let setting : Edit.Setting := {
      script
      silent := given.has "n" || text.startsWith "#n\n" || text = "#n"
      separate := given.has "s" || inPlace.isSome
      inPlace
      ending := if given.has "z" then '\x00' else '\n'
      width := ((given.last? "l").bind natural?).getD 70 }
    let mut targets : List (String × Nat × Bool) := []
    for path in script.targets do
      match ← Work.act (Act.openFile path .output 0o666) with
      | .ok descriptor => targets := targets ++ [(path, descriptor, false)]
      | .error cause => Work.fail 4 ("couldn't open file " ++ path ++ ": " ++ cause.message)
    let start : Edit.State := {
      pattern := [], ended := true, hold := [], holdEnded := true, number := 0, replaced := false, pending := [], intake := none
      path := "-", rest := if paths.isEmpty then ["-"] else paths, targets, sources := [], isOpen := false, becomes := ""
      last := none, ranges := [], closed := [], failed := 0 }
    let editing : Edit.Editing Nat := do
      let status ← Edit.Editing.cycle lineLimit false
      Edit.Editing.closeFile
      return status
    let (status, state) ← StateT.run (ReaderT.run editing setting) start
    return if status = 0 then state.failed else status

end Pkgset.Tool
