import Pkgset.Shell.Pattern
import Pkgset.Text.Regex
import Pkgset.Tool.Files
import Pkgset.Tool.Intake

/-!
# Searching lines

Lines are chosen that an expression matches, or those that none matches. They are shown
with the names of their files, their numbers and the lines around them.
-/

namespace Pkgset.Tool
open Kernel

/-- How lines are searched. -/
structure Search where
  regexes : List Regex
  given : Given
  /-- Whether the names of files are shown. -/
  named : Bool
  limit : Option Nat
  before : Nat
  after : Nat

namespace Search

/-- Whether an option was given. -/
def has (search : Search) (key : String) : Bool := search.given.has key

/-- The first match in a line from a place on, of all expressions. -/
def find? (search : Search) (matching : Regex.Matching) (place : Nat) : Option (Nat × Nat) :=
  let size := matching.text.size
  let accepts (start stop : Nat) : Bool :=
    if search.has "x" then start = 0 && stop = size
    else if search.has "w" then !(0 < start && matching.inWord (start - 1)) && !matching.inWord stop
    else true
  let found := search.regexes.filterMap fun regex =>
    (Regex.searchWhere matching regex accepts place).bind (·.lookup 0)
  found.foldl (fun best (start, stop) =>
    match best with
    | none => some (start, stop)
    | some (a, b) => if start < a || (start = a && b < stop) then some (start, stop) else best) none

/-- All matches in a line that are not empty, within a number of them. -/
def findAll (search : Search) (matching : Regex.Matching) : Nat → Nat → List (Nat × Nat)
  | 0, _ => []
  | bound + 1, place =>
    match search.find? matching place with
    | none => []
    | some (start, stop) =>
      if start = stop then
        if matching.text.size < start + 1 then [] else findAll search matching bound (start + 1)
      else (start, stop) :: findAll search matching bound stop

/-- Whether lines are shown, and not only counted or named. -/
def showsLines (search : Search) : Bool :=
  ! ["c", "l", "L", "q"].any search.has

/-- How far a file has been searched. -/
structure Progress where
  number : Nat
  offset : Nat
  count : Nat
  /-- The number of the last line that has been shown. -/
  shown : Nat
  /-- How many lines more are shown behind a match. -/
  due : Nat
  /-- The last lines that have not been shown. -/
  recent : List (Nat × Nat × List Char)
  /-- Whether the file holds what is no text, and whether a line of it has been chosen. -/
  isBinary : Bool
  isHidden : Bool

/-- Whether only text is shown. -/
def showsText (search : Search) : Bool := !search.has "a" && !search.has "z"

/-- What stands before a line. -/
def front (search : Search) (name : String) (mark : String) (number offset : Nat) : String :=
  (if search.named then name ++ (if search.has "Z" then "\x00" else mark) else "") ++
    (if search.has "n" then digits number ++ mark else "") ++
    (if search.has "b" then digits offset ++ mark else "") ++
    (if search.has "T" && (search.named || search.has "n" || search.has "b") then "\t" else "")

/-- Shows a line. -/
def write (search : Search) (name mark : String) (number offset : Nat) (line : List Char) : Work Unit :=
  Work.put (search.front name mark number offset ++ String.ofList line ++ "\n")

/-- The line between groups of lines that do not follow each other. -/
def separate (search : Search) (progress : Progress) (number : Nat) (isFirst : Bool) : Work Unit := do
  let withContext := 0 < search.before || 0 < search.after || ["A", "B", "C"].any search.has
  let isApart := if progress.shown = 0 then !isFirst else progress.shown + 1 < number
  if withContext && isApart && !search.has "no-group-separator" then
    Work.put ((search.given.last? "group-separator").getD "--" ++ "\n")

/-- Shows what a line that has been chosen asks for. -/
def showMatch (search : Search) (name : String) (progress : Progress) (isFirst : Bool) (matching : Regex.Matching)
    (line : List Char) : Work Progress := do
  let number := progress.number
  if search.has "o" then
    if !search.has "v" then
      for (start, stop) in search.findAll matching (line.length + 2) 0 do
        search.write name ":" number (progress.offset + start) ((line.take stop).drop start)
    return { progress with shown := number }
  let kept := progress.recent.filter fun (number, _) => progress.shown < number
  let kept := kept.take search.before
  let first := (kept.getLast?.map (·.1)).getD number
  search.separate progress first isFirst
  for (number, offset, line) in kept.reverse do search.write name "-" number offset line
  search.write name ":" number progress.offset line
  return { progress with shown := number, due := search.after }

/-- Searches the lines of a file, within a number of them. -/
def lines (search : Search) (name : String) (isFirst : Bool) : Nat → Progress → Intake → Work (Progress × Intake)
  | 0, progress, intake => return (progress, intake)
  | bound + 1, progress, intake => do
    let ending := if search.has "z" then '\x00' else '\n'
    if search.limit.any (· ≤ progress.count) && progress.due = 0 then return (progress, intake)
    let (whole, intake) ← intake.line ending
    let some whole := whole | return (progress, intake)
    let line := bare ending whole
    let progress := { progress with number := progress.number + 1 }
    let matching : Regex.Matching := ⟨line.toArray, search.has "i" || search.has "y", true, true, false⟩
    let open_ := search.limit.all (progress.count < ·)
    let isChosen := open_ && (search.find? matching 0).isSome != search.has "v"
    let next (progress : Progress) : Progress := { progress with
      offset := progress.offset + whole.length
      recent := ((progress.number, progress.offset, line) :: progress.recent).take search.before }
    if isChosen then
      let progress := { progress with count := progress.count + 1 }
      if search.has "q" || search.has "l" || search.has "L" then return (progress, intake)
      if !search.showsLines then lines search name isFirst bound (next progress) intake
      else if progress.isBinary || (search.showsText && line.contains '\x00') then
        return ({ progress with isHidden := true }, intake)
      else
        let progress ← search.showMatch name progress isFirst matching line
        lines search name isFirst bound (next progress) intake
    else if 0 < progress.due && search.showsLines && !search.has "o" then
      search.write name "-" progress.number progress.offset line
      lines search name isFirst bound (next { progress with shown := progress.number, due := progress.due - 1 }) intake
    else if !open_ then return (progress, intake)
    else lines search name isFirst bound (next { progress with due := 0 }) intake

/-- What has become of searching files: whether some line has been chosen, whether something
    went wrong, and whether nothing has been shown yet. -/
structure Outcome where
  found : Bool
  failed : Bool
  isFirst : Bool

/-- Says that a file cannot be searched. -/
def trouble (search : Search) (path : String) (cause : Cause) : Work Unit := do
  if !search.has "s" then Work.warn (path ++ ": " ++ cause.message)

/-- Searches a file. -/
def file (search : Search) (path : String) (outcome : Outcome) : Work Outcome := do
  if outcome.found && search.has "q" then return outcome
  let name := if path = "-" then (search.given.last? "label").getD "(standard input)" else path
  if search.showsLines && (← Work.isOutput path) then
    Work.warn (name ++ ": input file is also the output")
    return { outcome with failed := true }
  match ← Intake.start path with
  | .error cause =>
    search.trouble name cause
    return { outcome with failed := true }
  | .ok intake =>
    let intake ← intake.more
    let isBinary := search.showsText && intake.waiting.contains '\x00'
    let (progress, intake) ← search.lines name outcome.isFirst lineLimit ⟨0, 0, 0, 0, 0, [], isBinary, false⟩ intake
    intake.stop
    if let some cause := intake.fault then
      search.trouble name cause
      return { outcome with failed := true }
    if progress.isHidden then Work.put ((← Work.name) ++ ": " ++ name ++ ": binary file matches\n")
    if search.has "q" then pure ()
    else if search.has "l" then
      if 0 < progress.count then Work.put (name ++ (if search.has "Z" then "\x00" else "\n"))
    else if search.has "L" then
      if progress.count = 0 then Work.put (name ++ (if search.has "Z" then "\x00" else "\n"))
    else if search.has "c" then
      Work.put ((if search.named then name ++ ":" else "") ++ digits progress.count ++ "\n")
    return { outcome with
      found := outcome.found || 0 < progress.count
      isFirst := outcome.isFirst && progress.shown = 0 }

/-- Whether a file found in a folder is searched. -/
def isWanted (search : Search) (isFolder : Bool) (name : String) : Bool :=
  let matches_ (key : String) : Bool := (search.given.all key).any fun pattern => Shell.Pattern.covers pattern name
  if isFolder then !matches_ "exclude-dir"
  else !matches_ "exclude" && ((search.given.all "include").isEmpty || matches_ "include")

/-- Searches a file or all files in a folder, within a depth. -/
def tree (search : Search) : Nat → Bool → String → Outcome → Work Outcome
  | 0, _, _, outcome => return outcome
  | bound + 1, isTold, path, outcome => do
    let recursive := search.has "r" || search.has "R" || search.given.last? "directories" = some "recurse"
    if path = "-" then return ← search.file path outcome
    let follows := isTold || search.has "R"
    match ← Work.inspect follows path with
    | .error cause =>
      search.trouble path cause
      return { outcome with failed := true }
    | .ok (_, inode) =>
      if inode.isFolder then
        if search.given.last? "directories" = some "skip" then return outcome
        if !recursive then
          search.trouble path .isFolder
          return { outcome with failed := true }
        match ← Work.entries path with
        | .error cause =>
          search.trouble path cause
          return { outcome with failed := true }
        | .ok names =>
          let mut outcome := outcome
          for name in names do
            let inner := if path = "" then name else within path name
            if search.isWanted (← Work.isFolder inner) name then
              let isLink := (← Work.linkTarget? inner).isSome
              if !isLink || search.has "R" then outcome ← tree search bound false inner outcome
          return outcome
      else if isTold && !search.isWanted false (lastName path) then return outcome
      else search.file path outcome

end Search

/-- How a program is used that searches lines. -/
def searchAdvice (name : String) : String := "Usage: " ++ name ++ " [OPTION]... PATTERNS [FILE]...\n" ++ helpAdvice name

/-- Searches files for lines that are matched. -/
def grep (arguments : List String) : Work Nat := do
  let arguments := arguments.map fun text =>
    match text.toList with
    | '-' :: c :: rest => if c.isDigit && rest.all Char.isDigit then "-C" ++ String.ofList (c :: rest) else text
    | _ => text
  let grammar : Grammar := { Grammar.plain
      "A/after-context: B/before-context: C/context: E/extended-regexp F/fixed-strings G/basic-regexp H/with-filename I L/files-without-match P/perl-regexp R/dereference-recursive T/initial-tab U/binary V/version Z/null a/text b/byte-offset c/count /color? /colour? d/directories: D/devices: e/regexp: /exclude: /exclude-dir: /exclude-from: f/file: h/no-filename i/ignore-case y /include: /label: l/files-with-matches /line-buffered m/max-count: n/line-number /no-ignore-case /no-messages o/only-matching q/quiet q/silent r/recursive s/no-messages u v/invert-match w/word-regexp x/line-regexp z/null-data /group-separator: /no-group-separator"
      true 2 with advice := searchAdvice }
  let given ← grammar.given arguments
  let given := { given with options := given.options.map fun (key, value) =>
    (if key = "d" then "directories" else key, value) }
  let number (key : String) : Work (Option Nat) := do
    match given.last? key with
    | none => return none
    | some told =>
      match natural? told with
      | some n => return some n
      | none =>
        if key = "m" then Work.fail 2 "invalid max count" else Work.fail 2 (told ++ ": invalid context length argument")
  let context ← number "C"
  let before ← number "B"
  let after ← number "A"
  let limit ← if given.last? "m" = some "-1" then pure none else number "m"
  let (patterns, paths) ← if given.has "e" || given.has "f" then do
      let mut texts := given.all "e"
      for path in given.all "f" do
        match ← Work.input path with
        | .ok text => texts := texts ++ (linesOf '\n' text.toList).map String.ofList
        | .error cause => Work.fail 2 (path ++ ": " ++ cause.message)
      pure (texts, given.operands)
    else match given.operands with
      | [] =>
        Work.complain (searchAdvice (← Work.name))
        Work.leave 2
      | pattern :: paths => pure ([pattern], paths)
  let kind := (given.lastOf? ["E", "F", "G", "P"]).getD "G"
  let regexes ← (patterns.flatMap (·.splitOn "\n")).mapM fun text =>
    if kind = "F" then pure (Regex.literal text)
    else
      let text := if kind = "P" then (text.replace "\\d" "[0-9]").replace "(?:" "(" else text
      match Regex.ofText (kind = "E" || kind = "P") text with
      | .ok regex => pure regex
      | .error fault => Work.fail 2 fault.message
  let recursive := given.has "r" || given.has "R" || given.last? "directories" = some "recurse"
  let paths := if paths.isEmpty then [if recursive then "" else "-"] else paths
  let isTree ← match paths with
    | [path] => do pure (recursive && (path = "" || (← Work.isFolder path)))
    | _ => pure false
  let named := match given.lastOf? ["H", "h"] with
    | some key => decide (key = "H")
    | none => decide (1 < paths.length) || isTree
  let search : Search := ⟨regexes, given, named, limit, (before.orElse fun _ => context).getD 0,
    (after.orElse fun _ => context).getD 0⟩
  let mut outcome : Search.Outcome := ⟨false, false, true⟩
  for path in paths do
    if path = "" && recursive then
      match ← Work.entries "." with
      | .error cause =>
        search.trouble "." cause
        outcome := { outcome with failed := true }
      | .ok names =>
        for name in names do
          if search.isWanted (← Work.isFolder name) name && (search.has "R" || (← Work.linkTarget? name).isNone) then
            outcome ← search.tree treeLimit false name outcome
    else outcome ← search.tree treeLimit true path outcome
  return if outcome.failed && !(outcome.found && given.has "q") then 2 else if outcome.found then 0 else 1

end Pkgset.Tool
