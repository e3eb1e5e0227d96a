import Pkgset.Shell.Pattern
import Pkgset.Tool.Order
import Pkgset.Tool.Paths

/-!
# Listing folders

Files are listed by their names, each with a mark or in a row of what is known of it.
Folders are listed by what they hold.
-/

namespace Pkgset.Tool
open Kernel

/-- A file that is listed. -/
structure Entry where
  name : String
  path : String
  id : InodeId
  inode : Inode
  /-- What a link leads to, if it does. -/
  target : Option Inode

/-- How files are listed. -/
structure Listing where
  given : Given

namespace Listing

/-- Whether an option was given. -/
def has (listing : Listing) (key : String) : Bool := listing.given.has key

/-- How names are laid out: in lines, in rows of what is known, in columns downwards or
    across, or with commas. -/
def layout (listing : Listing) : String :=
  match listing.given.lastOf? ["1", "l", "g", "n", "o", "full-time", "C", "x", "m"] with
  | some "1" =>
    if (listing.given.options.any fun (key, _) => ["l", "g", "n", "o", "full-time"].contains key) then "l" else "1"
  | some "g" | some "n" | some "o" | some "full-time" => "l"
  | some key => key
  | none => "1"

/-- Whether rows are shown. -/
def isLong (listing : Listing) : Bool := listing.layout = "l"

/-- The order of two files. -/
def order (listing : Listing) (a b : Entry) : Ordering :=
  let byName := textOrder a.name.toList b.name.toList
  let order := match listing.given.lastOf? ["t", "S", "X", "v", "U", "f"] with
    | some "t" => (compare b.inode.modified a.inode.modified).then byName
    | some "S" => (compare b.inode.size a.inode.size).then byName
    | some "X" =>
      let suffix (name : String) : List Char :=
        let back := name.toList.reverse.takeWhile (· ≠ '.')
        if back.length < name.length then '.' :: back.reverse else []
      (textOrder (suffix a.name) (suffix b.name)).then byName
    | some "v" => Order.versionOrder a.name.toList b.name.toList
    | some _ => byName
    | none => byName
  let isFolder (entry : Entry) : Nat :=
    if entry.inode.isFolder || entry.target.any (·.isFolder) then 0 else 1
  let order := if listing.has "r" then order.swap else order
  if listing.has "group-directories-first" then (compare (isFolder a) (isFolder b)).then order else order

/-- Files in the order of a listing. -/
def ordered (listing : Listing) (entries : List Entry) : List Entry :=
  entries.mergeSort fun a b => listing.order a b != .gt

/-- The mark behind a name. -/
def mark (listing : Listing) (inode : Inode) : String :=
  if listing.has "F" then match inode.content with
    | .folder _ _ => "/"
    | .link _ => if listing.isLong then "" else "@"
    | .channel _ => "|"
    | .file _ => if inode.isExecutable then "*" else ""
    | .device _ => ""
  else if listing.has "file-type" then match inode.content with
    | .folder _ _ => "/"
    | .link _ => if listing.isLong then "" else "@"
    | .channel _ => "|"
    | _ => ""
  else if listing.has "p" && inode.isFolder then "/" else ""

/-- A name as it is listed. -/
def shown (listing : Listing) (name : String) : String :=
  match listing.given.lastOf? ["Q", "b", "q", "N"] with
  | some "Q" => "\"" ++ String.join (name.toList.map fun c =>
      if c = '"' || c = '\\' then "\\" ++ c.toString else if c.toNat < 32 || 126 < c.toNat then unseen c else c.toString) ++
        "\""
  | some "b" => String.join (name.toList.map fun c =>
      if c = ' ' || c = '\\' then "\\" ++ c.toString else if c.toNat < 32 || 126 < c.toNat then unseen c else c.toString)
  | some "q" => name.map fun c => if c.toNat < 32 || 126 < c.toNat then '?' else c
  | _ => name

/-- The room that a file takes, in kilobytes. -/
def blocks (inode : Inode) : Nat :=
  match inode.content with
  | .file bytes => 4 * ((bytes.size + 4095) / 4096)
  | .folder _ _ => 4
  | _ => 0

/-- A size in the largest unit that leaves at least one, rounded up. -/
def unitsOf (step : Nat) (n : Nat) : String :=
  let rec go : Nat → Nat → Nat → List Char → String
    | 0, _, _, _ => digits n
    | _, _, _, [] => digits n
    | bound + 1, scaled, unit, letter :: letters =>
      let next := unit * step
      if n < next * step || letters.isEmpty then
        let tenths := (n * 10 + next - 1) / next
        (if tenths < 100 then digits (tenths / 10) ++ "." ++ digits (tenths % 10) else digits ((n + next - 1) / next)) ++
          letter.toString
      else go bound scaled next letters
  if n < step then digits n else go 10 n 1 "KMGTPEZY".toList

/-- A size as it is listed. -/
def sizeText (listing : Listing) (size : Nat) : String :=
  if listing.has "h" then unitsOf 1024 size else if listing.has "si" then unitsOf 1000 size else digits size

/-- The moment of the last change as it is listed: the time of day, or the year if it is
    long ago. -/
def momentText (listing : Listing) (now time : Int) : String :=
  let seconds := Int.fdiv time 1000000000
  let fraction := (Int.emod time 1000000000).toNat
  let style := (listing.given.last? "time-style").getD ""
  let format :=
    if listing.has "full-time" || style = "full-iso" then "%Y-%m-%d %H:%M:%S.%N %z"
    else if style = "long-iso" then "%Y-%m-%d %H:%M"
    else if style.startsWith "+" then (style.drop 1).toString
    else if Int.fdiv now 1000000000 - 15778476 < seconds && time ≤ now then
      if style = "iso" then "%m-%d %H:%M" else "%b %e %H:%M"
    else if style = "iso" then "%Y-%m-%d "
    else "%b %e  %Y"
  Moment.format seconds fraction format

/-- The columns of a row before the name. -/
def columns (listing : Listing) (now : Int) (names : Nat) (entry : Entry) : List (Bool × String) :=
  let inode := entry.inode
  let user := if listing.has "n" then "0" else "root"
  [(false, (kindLetter inode).toString ++ Mode.letters inode.mode), (true, digits names)] ++
    (if listing.has "g" then [] else [(false, user)]) ++
    (if listing.has "o" || listing.has "G" then [] else [(false, user)]) ++
    [(true, listing.sizeText inode.size), (false, listing.momentText now inode.modified)]

/-- What stands before all columns of a file. -/
def front (listing : Listing) (entry : Entry) : List String :=
  (if listing.has "i" then [digits (entry.id + 1000)] else []) ++
    (if listing.has "s" then [digits (blocks entry.inode)] else [])

/-- Texts in columns that are as wide as their widest text; the ones of a column with a
    number stand at its right. -/
def aligned (rows : List (List (Bool × String))) : List String :=
  let count := (rows.map List.length).foldl max 0
  let widths := (List.range count).map fun place =>
    (rows.map fun row => (row[place]?.elim 0 (·.2.length))).foldl max 0
  rows.map fun row => " ".intercalate ((row.zip widths).map fun ((isNumber, text), width) =>
    if isNumber then right width text else left width text)

/-- Blanks from one column to another, with tabs where they reach a stop. -/
def indent : Nat → Nat → Nat → String
  | 0, _, _ => ""
  | bound + 1, start, stop =>
    if stop ≤ start then ""
    else if (start + 1) / 8 < stop / 8 then "\t" ++ indent bound ((start / 8 + 1) * 8) stop
    else " " ++ indent bound (start + 1) stop

/-- Names in as many columns as a line of eighty characters has room for. -/
def inColumns (across : Bool) (names : List String) : String :=
  let count := names.length
  let heights (columns : Nat) : Nat := (count + columns - 1) / columns
  let place (columns row column : Nat) : Nat := if across then row * columns + column else column * heights columns + row
  let widths (columns : Nat) : List Nat := (List.range columns).map fun column =>
    let longest := ((List.range (heights columns)).map fun row =>
      (names[place columns row column]?.elim 0 String.length)).foldl max 0
    if column + 1 = columns then longest else longest + 2
  let fits (columns : Nat) : Bool := columns = 1 || (widths columns).foldl (· + ·) 0 < 80
  let columns := ((List.range (min count 26)).reverse.map (· + 1)).find? fits |>.getD 1
  let starts := (widths columns).foldl (fun (found, sum) width => (found ++ [sum], sum + width)) (([] : List Nat), 0) |>.1
  String.join ((List.range (heights columns)).map fun row =>
    let (text, _) := (List.range columns).foldl (fun (text, reached) column =>
      match names[place columns row column]? with
      | none => (text, reached)
      | some name =>
        let start := (starts[column]?).getD 0
        (text ++ indent 200 reached start ++ name, start + name.length)) ("", 0)
    text ++ "\n")

/-- Names with commas between them, in lines of eighty characters. -/
def withCommas (names : List String) : String :=
  let (text, _, _) := names.foldl (fun (text, reached, isFirst) name =>
    if isFirst then (name, name.length, false)
    else if reached + name.length + 2 < 80 then (text ++ ", " ++ name, reached + name.length + 2, false)
    else (text ++ ",\n" ++ name, name.length, false)) ("", 0, true)
  if names.isEmpty then "" else text ++ "\n"

/-- The files of a listing as a text. -/
def text (listing : Listing) (now : Int) (entries : List (Entry × Nat)) : String :=
  let nameOf (entry : Entry) : String := listing.shown entry.name ++ listing.mark entry.inode
  if listing.isLong then
    let rows := aligned (entries.map fun (entry, names) =>
      (listing.front entry).map ((true, ·)) ++ listing.columns now names entry)
    String.join ((rows.zip entries).map fun (row, entry, _) =>
      let target := match entry.inode.content with
        | .link target => " -> " ++ listing.shown target ++ (entry.target.elim "" listing.mark)
        | _ => ""
      row ++ " " ++ nameOf entry ++ target ++ "\n")
  else
    let fronts := aligned (entries.map fun (entry, _) => (listing.front entry).map ((true, ·)))
    let names := (fronts.zip entries).map fun (front, entry, _) =>
      (if front = "" then "" else front ++ " ") ++ nameOf entry
    match listing.layout with
    | "C" => inColumns false names
    | "x" => inColumns true names
    | "m" => withCommas names
    | _ => String.join (names.map (· ++ (if listing.has "zero" then "\x00" else "\n")))

/-- Writes files. -/
def write (listing : Listing) (entries : List Entry) : Work Unit := do
  let now ← Work.act (Act.look fun world _ => world.now)
  let entries ← entries.mapM fun entry => do return (entry, ← Work.namesOf entry.inode)
  Work.put (listing.text now entries)

/-- A file that is to be listed. -/
def entry (listing : Listing) (follow : Bool) (name path : String) : Work (Except Cause Entry) := do
  match ← Work.inspect (follow || listing.has "L") path with
  | .error cause =>
    if follow || listing.has "L" then
      match ← Work.inspect false path with
      | .ok (id, inode) => return .ok ⟨name, path, id, inode, none⟩
      | .error _ => return .error cause
    else return .error cause
  | .ok (id, inode) =>
    let target ← if inode.isLink then do pure ((← Work.inspect true path).toOption.map (·.2)) else pure none
    return .ok ⟨name, path, id, inode, target⟩

/-- Whether a name in a folder is listed. -/
def isListed (listing : Listing) (name : String) : Bool :=
  let all := listing.has "a" || listing.has "f"
  let patterns := listing.given.all "I" ++ (if all then [] else listing.given.all "hide")
  (all || listing.has "A" || !name.startsWith ".") &&
    !((listing.has "B") && name.endsWith "~") &&
    !patterns.any fun pattern => Shell.Pattern.covers pattern name

/-- Lists what a folder holds, and tells the folders in it. -/
def folder (listing : Listing) (path : String) : Work (Option (List Entry)) := do
  match ← Work.entries path with
  | .error cause =>
    Work.warn ((if cause = .notFound then "cannot access " else "cannot open directory ") ++ quoted path ++ ": " ++ cause.message)
    return none
  | .ok names =>
    let names := (if listing.has "a" || listing.has "f" then [".", ".."] else []) ++ names
    let mut entries : List Entry := []
    for name in names.filter listing.isListed do
      if let .ok entry ← listing.entry false name (within path name) then entries := entry :: entries
    let sorted := listing.ordered entries.reverse
    if listing.isLong || listing.has "s" then
      Work.put ("total " ++ (if listing.has "h" then
        let total := 1024 * (sorted.map (blocks ·.inode)).foldl (· + ·) 0
        unitsOf 1024 total else digits ((sorted.map (blocks ·.inode)).foldl (· + ·) 0)) ++ "\n")
    listing.write sorted
    return some (sorted.filter fun entry => entry.inode.isFolder && entry.name ≠ "." && entry.name ≠ "..")

/-- Lists a folder and the folders in it, within a depth. -/
def tree (listing : Listing) (headed : Bool) : Nat → Bool → String → Work Bool
  | 0, _, _ => return false
  | bound + 1, isFirst, path => do
    if headed then Work.put ((if isFirst then "" else "\n") ++ path ++ ":\n")
    match ← listing.folder path with
    | none => return false
    | some inner =>
      if !listing.has "R" then return true
      let mut worked := true
      for entry in inner do
        if !(← tree listing headed bound false entry.path) then worked := false
      return worked

end Listing

/-- Lists files with more options at hand. -/
def listWith (extra : List (String × String)) (arguments : List String) : Work Nat := do
  let grammar := Grammar.plain
    "a/all A/almost-all /author b/escape /block-size: B/ignore-backups c C /color? d/directory D/dired f F/classify? /file-type /format: /full-time g /group-directories-first G/no-group h/human-readable /si H/dereference-command-line /hide: /hyperlink? /indicator-style: i/inode I/ignore: k/kibibytes l L/dereference m n/numeric-uid-gid N/literal o p q/hide-control-chars /show-control-chars Q/quote-name /quoting-style: r/reverse R/recursive s/size S /sort: /time: /time-style: t T/tabsize: u U v w/width: x X Z/context 1 /zero"
    true 2
  let given ← grammar.given arguments
  let listing : Listing := ⟨{ given with options := extra ++ given.options }⟩
  let follows := !(listing.isLong || given.has "d" || given.has "F") || given.has "H"
  let mut status := 0
  let mut files : List Entry := []
  let mut folders : List Entry := []
  for path in if given.operands.isEmpty then ["."] else given.operands do
    let found ← match ← listing.entry false path path with
      | .error cause => pure (Except.error cause)
      | .ok entry =>
        if entry.inode.isLink && follows && (given.has "H" || entry.target.any (·.isFolder)) then listing.entry true path path
        else pure (.ok entry)
    match found with
    | .error cause =>
      Work.warn ("cannot access " ++ quoted path ++ ": " ++ cause.message)
      status := 2
    | .ok entry =>
      if entry.inode.isFolder && !given.has "d" then folders := folders ++ [entry] else files := files ++ [entry]
  listing.write (listing.ordered files)
  let headed := 1 < given.operands.length || given.has "R"
  let mut isFirst := files.isEmpty
  for entry in listing.ordered folders do
    if !headed && !isFirst then Work.put "\n"
    if !(← listing.tree headed treeLimit isFirst entry.path) then status := if status = 0 then 2 else status
    isFirst := false
  return status

/-- Lists files. -/
def ls (arguments : List String) : Work Nat := listWith [] arguments

/-- Lists files in columns. -/
def dir (arguments : List String) : Work Nat := listWith [("C", ""), ("b", "")] arguments

/-- Lists files in rows. -/
def vdir (arguments : List String) : Work Nat := listWith [("l", ""), ("b", "")] arguments

end Pkgset.Tool
