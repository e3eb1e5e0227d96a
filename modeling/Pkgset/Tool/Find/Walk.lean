import Pkgset.Text.Calendar
import Pkgset.Tool.Find.Query
import Pkgset.Tool.Files
import Pkgset.Tool.Listing
import Pkgset.Tool.Start

/-!
# Walking trees of files

A query is asked of each file of a tree, of a folder before what it holds or after that.
Commands for many files at once are run at the end.
-/

namespace Pkgset.Tool
open Kernel Shell

namespace Find

/-- A file on the way: its path and the path it was reached from, how deep it is, what is
    known of it, and its place among the files that were told. -/
structure Place where
  path : String
  start : String
  depth : Nat
  id : InodeId
  inode : Inode

/-- What is known while a tree is walked. -/
structure State where
  /-- Whether the folder that was asked about last is not entered. -/
  skipped : Bool
  finished : Bool
  status : Nat
  /-- The files for commands, by the places of those. -/
  collected : List (Nat × List String)

/-- What walks trees. -/
abbrev Walking := ReaderT Walk (StateT State Work)

namespace Walking

/-- Says that something has gone wrong. -/
def wrong (text : String) : Walking Unit := do
  Work.warn text
  modify fun state => { state with status := 1 }

/-- The name of a file: what follows the last separator of its path. -/
def nameOf (path : String) : String :=
  let body := (path.toList.reverse.dropWhile (· = '/')).reverse
  if body.isEmpty then (if path = "" then "" else "/") else lastName (String.ofList body)

/-- The path of the folder that a file is in. -/
def folderPath (path : String) : String :=
  let body := path.toList.reverse.dropWhile (· = '/')
  let front := (body.dropWhile (· ≠ '/')).reverse
  if body.isEmpty then "" else if front.isEmpty then "." else if front.length = 1 then "" else String.ofList front.dropLast

/-- The letter of what an inode is. -/
def letterOf (inode : Inode) : Char := if kindLetter inode = '-' then 'f' else kindLetter inode

/-- What is known of a path, with links followed or not. -/
def inspect (depth : Nat) (path : String) : Walking (Except Cause (InodeId × Inode)) := do
  let follows := (← read).follows
  if follows = 'L' || (follows = 'H' && depth = 0) then
    match ← Work.inspect true path with
    | .ok found => return .ok found
    | .error _ => Work.inspect false path
  else Work.inspect false path

/-- What stands for a letter in what is written about a file. -/
def described (place : Place) (names : Nat) (letter : Char) (more : Option Char) : Option String :=
  let seconds := Int.fdiv place.inode.modified 1000000000
  let nanoseconds := (Int.emod place.inode.modified 1000000000).toNat
  let below := (place.path.drop place.start.length).toString
  let nine := digits nanoseconds
  let fraction := String.ofList (List.replicate (9 - nine.length) '0') ++ nine ++ "0"
  match letter with
  | 'p' => some place.path
  | 'P' => some (if below.startsWith "/" then (below.drop 1).toString else below)
  | 'f' =>
    let name := nameOf place.path
    let slashes := place.path.toList.reverse.takeWhile (· = '/')
    some (if name = "/" then name else name ++ String.ofList slashes)
  | 'h' => some (folderPath place.path)
  | 'H' => some place.start
  | 'd' => some (digits place.depth)
  | 'y' | 'Y' => some (letterOf place.inode).toString
  | 's' => some (digits place.inode.size)
  | 'm' => some (String.ofList (Nat.toDigits 8 place.inode.mode))
  | 'M' => some ((kindLetter place.inode).toString ++ Mode.letters place.inode.mode)
  | 'l' => some (match place.inode.content with
    | .link target => target
    | _ => "")
  | 'u' | 'g' => some "root"
  | 'U' | 'G' => some "0"
  | 'i' => some (digits (place.id + 1000))
  | 'n' => some (digits names)
  | 'k' => some (digits (Listing.blocks place.inode))
  | 'b' => some (digits (2 * Listing.blocks place.inode))
  | 'D' => some "1"
  | 'F' => some "ext4"
  | 'S' => some "1"
  | 't' | 'a' | 'c' =>
    some (Moment.format seconds 0 "%a %b %e %H:%M:%S." ++ fraction ++ Moment.format seconds 0 " %Y")
  | 'T' | 'A' | 'C' =>
    match more with
    | some '@' => some (integer seconds ++ "." ++ fraction)
    | some 'S' => some (Moment.format seconds 0 "%S." ++ fraction)
    | some '+' => some (Moment.format seconds 0 "%Y-%m-%d+%H:%M:%S." ++ fraction)
    | some c => some (Moment.format seconds nanoseconds ("%" ++ c.toString))
    | none => none
  | _ => none

/-- Writes about a file by a format. -/
def written (place : Place) (names : Nat) : Nat → List Char → String
  | 0, _ => ""
  | bound + 1, text =>
    let next (shown : String) (rest : List Char) : String := shown ++ written place names bound rest
    match text with
    | [] => ""
    | '%' :: '%' :: rest => next "%" rest
    | '%' :: rest =>
      let flags := rest.takeWhile fun c => "-+#0 ".toList.contains c
      let width := (rest.drop flags.length).takeWhile Char.isDigit
      let size := Decimal.ofDigits width
      let fill (text : String) : String := if flags.contains '-' then left size text else right size text
      match rest.drop (flags.length + width.length) with
      | [] => "%"
      | letter :: rest =>
        let timed := "TAC".toList.contains letter
        match described place names letter (if timed then rest.head? else none) with
        | some text => next (fill text) (if timed then rest.drop 1 else rest)
        | none => next ("%" ++ letter.toString) rest
    | '\\' :: 'c' :: _ => ""
    | '\\' :: c :: rest =>
      if Mode.isOctal c then
        let octal := (c :: rest).take 3 |>.takeWhile Mode.isOctal
        next (Char.ofNat (Mode.octal octal % 256)).toString ((c :: rest).drop octal.length)
      else match ("abfnrtv\\".toList.zip "\x07\x08\x0c\n\x0d\t\x0b\\".toList).lookup c with
        | some found => next found.toString rest
        | none => next ("\\" ++ c.toString) rest
    | c :: rest => next c.toString rest

/-- Runs a command and gives its status. -/
def run (folder : Option String) (arguments : List String) : Walking Nat := do
  let setting ← (show Work Setting from read)
  let first : Act Unit := do
    if let some folder := folder then discard (Act.call (Syscall.enterFolder · folder))
  let failed (cause : Cause) : Work Nat := do
    Work.warn (quoted (arguments.headD "") ++ ": " ++ cause.message)
    return 1
  match ← Work.spawn setting.image.environment arguments first failed with
  | some (.killed signal) =>
    Work.warn (quoted (arguments.headD "") ++ " terminated by signal " ++ digits signal)
    return 128 + signal
  | some ending => return ending.status
  | none => return 1

/-- The name by which a command in the folder of a file knows that file. -/
def localName (place : Place) : String :=
  let name := nameOf place.path
  if name.startsWith "/" then name else "./" ++ name

/-- The folder in which a command for a file is run. -/
def folderFor (place : Place) : String :=
  let folder := folderPath place.path
  if folder = "" then "/" else folder

/-- Whether a folder or a file holds nothing. -/
def isEmpty (inode : Inode) : Bool :=
  match inode.content with
  | .folder _ _ => inode.entries.isEmpty
  | .file bytes => bytes.isEmpty
  | _ => false

/-- Asks a query of a file. -/
def holds (place : Place) : Query → Walking Bool
  | .always holds => return holds
  | .name pattern ignoresCase =>
    let name := nameOf place.path
    return Pattern.accepts pattern (if ignoresCase then name.toLower else name).toList
  | .path pattern ignoresCase =>
    return Pattern.accepts pattern (if ignoresCase then place.path.toLower else place.path).toList
  | .target pattern ignoresCase =>
    match place.inode.content with
    | .link target => return Pattern.accepts pattern (if ignoresCase then target.toLower else target).toList
    | _ => return false
  | .regex regex ignoresCase =>
    let matching := Regex.line place.path ignoresCase
    return (Regex.matchWhere? matching regex (· = place.path.length) 0).isSome
  | .kind letters crosses => do
    let inode ← if !crosses then pure place.inode else do
      match ← Work.inspect ((← read).follows ≠ 'L') place.path with
      | .ok (_, inode) => pure inode
      | .error _ => pure place.inode
    return letters.contains (letterOf inode)
  | .empty => return isEmpty place.inode
  | .size range unit => return range.holds ((place.inode.size + unit - 1) / unit)
  | .mode manner ofFolder ofFile =>
    let mode := place.inode.mode
    let told := if place.inode.isFolder then ofFolder else ofFile
    return match manner with
      | .exact => decide (mode = told)
      | .every => decide (mode &&& told = told)
      | .some_ => decide (told = 0) || decide (mode &&& told ≠ 0)
  | .names range => return range.holds (← Work.namesOf place.inode)
  | .number range => return range.holds (place.id + 1000)
  | .newer moment => return decide (moment < place.inode.modified)
  | .age range unit => do
    let age := ((← read).now - place.inode.modified).toNat
    return match range with
      | .below n => decide (age < n * unit)
      | range => range.holds (if unit < 3600 * 1000000000 then (age + unit - 1) / unit else age / unit)
  | .owned isRoot => return isRoot
  | .same id => return decide (place.id = id)
  | .allowed letter => do
    match ← Work.inspect true place.path with
    | .ok (_, inode) => return letter ≠ 'x' || inode.isExecutable || inode.isFolder
    | .error _ => return false
  | .print ending => do
    Work.put (place.path ++ ending)
    return true
  | .printTo path ending => do
    if let .ok descriptor ← Work.act (Act.openFile path .addition 0o666) then
      discard (Work.act (Act.write descriptor (Raw.toArray (place.path ++ ending))))
      Work.act (Act.close descriptor)
    return true
  | .format text => do
    Work.put (written place (← Work.namesOf place.inode) (text.length + 1) text.toList)
    return true
  | .list => do
    let value := described place (← Work.namesOf place.inode)
    let get (letter : Char) : String := (value letter none).getD ""
    let seconds := Int.fdiv place.inode.modified 1000000000
    let ending := if place.inode.isLink then " -> " ++ get 'l' else ""
    Work.put (right 9 (get 'i') ++ " " ++ right 6 (get 'k') ++ " " ++ get 'M' ++ " " ++ right 3 (get 'n') ++
      " root     root     " ++ right 8 (get 's') ++ " " ++ Moment.format seconds 0 "%b %e %H:%M" ++ " " ++ place.path ++
      ending ++ "\n")
    return true
  | .run arguments inFolder => do
    let name := if inFolder then localName place else place.path
    let status ← run (if inFolder then some (folderFor place) else none) (arguments.map (·.replace "{}" name))
    return decide (status = 0)
  | .collect number arguments inFolder => do
    if inFolder then
      if (← run (some (folderFor place)) (arguments ++ [localName place])) ≠ 0 then
        modify fun state => { state with status := 1 }
    else modify fun state =>
      let old := (state.collected.lookup number).getD []
      { state with collected := (number, place.path :: old) :: state.collected.filter (·.1 ≠ number) }
    return true
  | .ask arguments => do
    Work.flush
    Work.complain ("< " ++ arguments.headD "" ++ " ... " ++ place.path ++ " > ? ")
    return false
  | .delete => do
    if place.path = "." then return true
    match ← if place.inode.isFolder then Work.call (Syscall.removeFolder · place.path)
        else Work.call (Syscall.removeName · place.path) with
    | .ok () => return true
    | .error cause =>
      wrong ("cannot delete " ++ quoted place.path ++ ": " ++ cause.message)
      return false
  | .skip => do
    modify fun state => { state with skipped := true }
    return true
  | .quit => do
    modify fun state => { state with finished := true }
    return true
  | .negation query => do return !(← holds place query)
  | .both first second => do
    if ← holds place first then
      if (← get).finished then return true
      holds place second
    else return false
  | .either first second => do
    if ← holds place first then return true
    if (← get).finished then return true
    holds place second
  | .sequence first second => do
    discard (holds place first)
    if (← get).finished then return true
    holds place second

/-- Walks a tree, within a depth. -/
def walk (query : Query) (start : String) : Nat → Nat → String → Walking Unit
  | 0, _, _ => return ()
  | bound + 1, depth, path => do
    if (← get).finished then return ()
    match ← inspect depth path with
    | .error cause => wrong (quoted path ++ ": " ++ cause.message)
    | .ok (id, inode) =>
      let how ← read
      let place : Place := ⟨path, start, depth, id, inode⟩
      let ask : Walking Unit := do
        if how.least ≤ depth && !(← get).finished then discard (holds place query)
      modify fun state => { state with skipped := false }
      if !how.depthFirst then ask
      let skipped := (← get).skipped && !how.depthFirst
      if inode.isFolder && !skipped && how.most.all (depth < ·) then
        match ← Work.entries path with
        | .error cause => wrong (quoted path ++ ": " ++ cause.message)
        | .ok names => for name in names do walk query start bound (depth + 1) (within path name)
      if how.depthFirst then ask

/-- The commands that are run for many files at once, with their places. -/
def commands : Query → List (Nat × List String)
  | .collect place arguments false => [(place, arguments)]
  | .negation query => commands query
  | .both first second | .either first second | .sequence first second => commands first ++ commands second
  | _ => []

/-- Walks all trees, and runs what is to be run at the end. -/
def whole (query : Query) (paths : List String) : Walking Unit := do
  for path in paths do walk query path treeLimit 0 path
  for (place, arguments) in commands query do
    match (← get).collected.lookup place with
    | some (path :: others) =>
      if (← run none (arguments ++ (path :: others).reverse)) ≠ 0 then
        modify fun state => { state with status := 1 }
    | _ => pure ()

end Walking
end Find

/-- Finds files. -/
def find (arguments : List String) : Work Nat := do
  let links := arguments.takeWhile fun text =>
    ["-H", "-L", "-P"].contains text || text.startsWith "-O"
  let follows := ((links.filter (!·.startsWith "-O")).getLast?.bind (·.toList.getLast?)).getD 'P'
  let rest := arguments.drop links.length
  let rest := if rest.head? = some "--" then rest.drop 1 else rest
  let paths := rest.takeWhile (!Find.Reading.startsQuery true ·)
  let now ← Work.act (Act.look fun world _ => (world.now : Int))
  let walk : Find.Walk := ⟨follows, 0, none, false, "emacs", now⟩
  let (query, progress) ← Find.Reading.whole.run ⟨rest.drop paths.length, walk, 0⟩
  let walking := Find.Walking.whole query (if paths.isEmpty then ["."] else paths)
  let (_, state) ← StateT.run (ReaderT.run walking progress.walk) ⟨false, false, 0, []⟩
  return state.status

end Pkgset.Tool
