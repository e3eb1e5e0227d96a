import Pkgset.Text.Calendar
import Pkgset.Tool.Files

/-!
# Programs that tell of paths

The physical path of a file goes through no links. It may be asked of a path whose last
name is missing, or of one of which nothing is there.
-/

namespace Pkgset.Tool
open Kernel

/-- What of a path has to be there. -/
inductive Presence where
  | everything | allButLast | nothing
  deriving DecidableEq, Repr

namespace Presence

/-- Follows names from a path without links, within a number of names and links. -/
def follow (presence : Presence) (resolves : Bool) : Nat → Nat → String → List String → Work (Except Cause String)
  | 0, _, _, _ => return .error .tooManyLinks
  | _, 0, _, _ => return .error .tooManyLinks
  | bound + 1, links + 1, here, names => do
    match names with
    | [] => return .ok here
    | "." :: rest | "" :: rest => follow presence resolves bound (links + 1) here rest
    | ".." :: rest =>
      let above := folderOf here
      follow presence resolves bound (links + 1) above rest
    | name :: rest =>
      let path := if here = "/" then "/" ++ name else here ++ "/" ++ name
      match ← Work.inspect false path with
      | .error cause =>
        let isLast := rest.all fun name => name = ""
        if presence = .nothing || (presence = .allButLast && isLast && cause = .notFound) then
          follow presence resolves bound (links + 1) path rest
        else return .error cause
      | .ok (_, inode) =>
        match inode.content with
        | .link target =>
          if !resolves then follow presence resolves bound (links + 1) path rest
          else
            let start := if Path.isAbsolute target then "/" else here
            follow presence resolves bound links start ((target.splitOn "/").filter (· ≠ "") ++ rest)
        | .folder _ _ => follow presence resolves bound (links + 1) path rest
        | _ =>
          if rest.isEmpty || presence = .nothing then follow presence resolves bound (links + 1) path rest
          else return .error .notFolder

/-- The physical path of a path. -/
def canonical (presence : Presence) (resolves : Bool) (path : String) : Work (Except Cause String) := do
  if path = "" then return .error .notFound
  let names := path.splitOn "/"
  let bound := 100000
  if Path.isAbsolute path then presence.follow resolves bound (World.linkLimit + 1) "/" names
  else
    match ← Work.call Syscall.currentFolder with
    | .error cause => return .error cause
    | .ok here => presence.follow resolves bound (World.linkLimit + 1) here names

end Presence

/-- Tells where links lead. -/
def readlink (arguments : List String) : Work Nat := do
  let given ← Work.options
    "f/canonicalize e/canonicalize-existing m/canonicalize-missing n/no-newline q/quiet s/silent v/verbose z/zero" arguments
  if given.operands.isEmpty then Work.misuse 1 "missing operand"
  let ending := if given.has "z" then "\x00" else if given.has "n" && given.operands.length = 1 then "" else "\n"
  let mut status := 0
  for path in given.operands do
    let found : Except Cause String ← match given.lastOf? ["f", "e", "m"] with
      | some key =>
        (if key = "f" then Presence.allButLast else if key = "e" then .everything else .nothing).canonical true path
      | none => do
        match ← Work.inspect false path with
        | .error cause => pure (.error cause)
        | .ok (_, inode) => pure (match inode.content with
          | .link target => .ok target
          | _ => .error .invalid)
    match found with
    | .ok text => Work.put (text ++ ending)
    | .error cause =>
      if given.lastOf? ["v", "q", "s"] = some "v" then Work.warn (about path cause)
      status := 1
  return status

/-- A path as it is told from a folder. Both have no links. -/
def relativeTo (folder path : String) : String :=
  let names (text : String) : List String := (text.splitOn "/").filter (· ≠ "")
  let way := wayTo (names folder) (names path)
  if way.isEmpty then "." else "/".intercalate way

/-- Tells physical paths. -/
def realpath (arguments : List String) : Work Nat := do
  let given ← Work.options
    "e/canonicalize-existing m/canonicalize-missing L/logical P/physical q/quiet /relative-to: /relative-base: s/strip s/no-symlinks z/zero"
    arguments
  if given.operands.isEmpty then Work.misuse 1 "missing operand"
  let presence : Presence := match given.lastOf? ["e", "m"] with
    | some "e" => .everything
    | some _ => .nothing
    | none => .allButLast
  let folder (key : String) : Work (Option String) := do
    match given.last? key with
    | none => return none
    | some path =>
      match ← presence.canonical (!given.has "s") path with
      | .ok found => return some found
      | .error cause => Work.fail 1 (about path cause)
  let start ← folder "relative-to"
  let base ← folder "relative-base"
  let isWithin (folder path : String) : Bool := folder = "/" || path = folder || path.startsWith (folder ++ "/")
  let mut status := 0
  for path in given.operands do
    match ← presence.canonical (!given.has "s") path with
    | .ok found =>
      let shown := match start, base with
        | none, none => found
        | some start, none => relativeTo start found
        | none, some base => if isWithin base found then relativeTo base found else found
        | some start, some base =>
          if isWithin base found && isWithin base start then relativeTo start found else found
      Work.put (shown ++ (if given.has "z" then "\x00" else "\n"))
    | .error cause =>
      if !given.has "q" then Work.warn (about path cause)
      status := 1
  return status

/-! ## New names -/

/-- Letters that look like chosen by chance, from a seed. -/
def scrambled : Nat → Nat → List Char
  | 0, _ => []
  | count + 1, seed =>
    let next := (seed * 6364136223846793005 + 1442695040888963407) % 18446744073709551616
    let letters := "abcdefghijklmnopqrstuvwxyzABCDEFGHIJKLMNOPQRSTUVWXYZ0123456789".toList
    (letters[(next / 8589934592) % 62]?).getD 'x' :: scrambled count next

/-- Makes a file or a folder under a name that is free, within a number of attempts. -/
def makeFresh (folder dry : Bool) (front : String) (count : Nat) (back : String) : Nat → Nat → Work (Except Cause String)
  | 0, _ => return .error .present
  | bound + 1, seed => do
    let path := front ++ String.ofList (scrambled count seed) ++ back
    if dry then
      match ← Work.inspect false path with
      | .ok _ => makeFresh folder dry front count back bound (seed + 1)
      | .error _ => return .ok path
    else
      let made : Except Cause Unit ← if folder then Work.call (Syscall.makeFolder · path 0o700)
        else do
          match ← Work.act (Act.openFile path .fresh 0o600) with
          | .ok descriptor =>
            Work.act (Act.close descriptor)
            pure (.ok ())
          | .error cause => pure (.error cause)
      match made with
      | .ok () => return .ok path
      | .error .present => makeFresh folder dry front count back bound (seed + 1)
      | .error cause => return .error cause

/-- Makes a file or a folder with a new name. -/
def mktemp (arguments : List String) : Work Nat := do
  let given ← Work.options "d/directory u/dry-run q/quiet p: /tmpdir? t V /suffix:" arguments
  if let _ :: _ :: _ := given.operands then Work.misuse 1 "too many templates"
  let template := given.operands.headD "tmp.XXXXXXXXXX"
  let kind := if given.has "d" then "directory" else "file"
  let chars := template.toList
  let back := match given.last? "suffix" with
    | some suffix => suffix.toList
    | none => (chars.reverse.takeWhile (· ≠ 'X')).reverse
  let body := if (given.last? "suffix").isSome then chars else chars.take (chars.length - back.length)
  let count := (body.reverse.takeWhile (· = 'X')).length
  if (given.last? "suffix").isSome && body.getLast? ≠ some 'X' then
    Work.fail 1 ("with --suffix, template " ++ quoted template ++ " must end in X")
  if count < 3 then Work.fail 1 ("too few X's in template " ++ quoted template)
  if back.contains '/' then
    Work.fail 1 ("invalid suffix " ++ quoted (String.ofList back) ++ ", contains directory separator")
  let front := String.ofList (body.take (body.length - count))
  let inFolder := given.operands.isEmpty || given.has "p" || given.has "tmpdir" || given.has "t"
  let told := ((given.last? "p").orElse fun _ => given.last? "tmpdir").getD ""
  let entry := (← Work.entry? "TMPDIR").filter (· ≠ "")
  let folder := if given.has "t" then entry.getD (if told = "" then "/tmp" else told)
    else if told ≠ "" then told else entry.getD "/tmp"
  if inFolder && template.startsWith "/" && (given.has "p" || given.has "tmpdir") then
    Work.fail 1 ("invalid template, " ++ quoted template ++ "; with --tmpdir, it may not be absolute")
  let front := if inFolder then within folder front else front
  let self ← Work.act Act.self
  let now ← Work.act (Act.look fun world _ => world.now)
  match ← makeFresh (given.has "d") (given.has "u") front count (String.ofList back) 10000
      (now.toNat + 7919 * self) with
  | .ok path =>
    Work.put (path ++ "\n")
    return 0
  | .error cause =>
    let shown := front ++ String.ofList (List.replicate count 'X') ++ String.ofList back
    if !given.has "q" then
      Work.warn ("failed to create " ++ kind ++ " via template " ++ quoted shown ++ ": " ++ cause.message)
    return 1

/-! ## What is known of files -/

/-- The letter of what an inode is. -/
def kindLetter (inode : Inode) : Char :=
  match inode.content with
  | .file _ => '-'
  | .folder _ _ => 'd'
  | .link _ => 'l'
  | .device _ => 'c'
  | .channel _ => 'p'

/-- The bits that tell what an inode is. -/
def kindBits (inode : Inode) : Nat :=
  match inode.content with
  | .file _ => 0o100000
  | .folder _ _ => 0o040000
  | .link _ => 0o120000
  | .device _ => 0o020000
  | .channel _ => 0o010000

/-- How many names an inode has; each folder in a folder is one more name of it. -/
def Work.namesOf (inode : Inode) : Work Nat := Work.act (Act.look fun world _ =>
  if inode.isFolder then 2 + (inode.entries.filter fun (_, id) => (world.inode id).isFolder).length else inode.names)

/-- What stands for a letter in a description of a file. -/
def described (path : String) (id : InodeId) (inode : Inode) (names : Nat) (letter : Char) : Option String :=
  let seconds := Int.fdiv inode.modified 1000000000
  let moment := Moment.format seconds (Int.emod inode.modified 1000000000).toNat "%Y-%m-%d %H:%M:%S.%N %z"
  match letter with
  | 'n' => some path
  | 'N' => some (match inode.content with
    | .link target => quoted path ++ " -> " ++ quoted target
    | _ => quoted path)
  | 's' => some (digits inode.size)
  | 'a' => some (String.ofList (Nat.toDigits 8 inode.mode))
  | 'A' => some ((kindLetter inode).toString ++ Mode.letters inode.mode)
  | 'F' => some (kindText inode)
  | 'f' => some (String.ofList (Nat.toDigits 16 (kindBits inode ||| inode.mode)))
  | 'u' | 'g' => some "0"
  | 'U' | 'G' => some "root"
  | 'h' => some (digits names)
  | 'i' => some (digits (id + 1000))
  | 'b' => some (digits (8 * ((inode.size + 4095) / 4096)))
  | 'B' => some "512"
  | 'o' => some "4096"
  | 'd' => some "1"
  | 't' | 'T' => some "0"
  | 'Y' | 'X' | 'Z' => some (integer seconds)
  | 'y' | 'x' | 'z' => some moment
  | 'w' => some "-"
  | 'W' => some "0"
  | 'm' => some "/"
  | _ => none

/-- Writes what is known of a file by a format. -/
def describedBy (escapes : Bool) (value : Char → Option String) : Nat → List Char → String
  | 0, _ => ""
  | _, [] => ""
  | bound + 1, '%' :: rest =>
    let flags := rest.takeWhile fun c => "-+#0 ".toList.contains c
    let width := (rest.drop flags.length).takeWhile Char.isDigit
    match rest.drop (flags.length + width.length) with
    | '%' :: rest => "%" ++ describedBy escapes value bound rest
    | letter :: rest =>
      let size := Decimal.ofDigits width
      let shown := match value letter with
        | none => "?"
        | some text =>
          if flags.contains '-' then left size text
          else if flags.contains '0' then String.ofList (List.replicate (size - text.length) '0') ++ text
          else right size text
      shown ++ describedBy escapes value bound rest
    | [] => "%"
  | bound + 1, '\\' :: c :: rest =>
    if !escapes then "\\" ++ describedBy escapes value bound (c :: rest)
    else
      (match c with
        | 'n' => "\n"
        | 't' => "\t"
        | '\\' => "\\"
        | '"' => "\""
        | '0' => "\x00"
        | c => c.toString) ++ describedBy escapes value bound rest
  | bound + 1, c :: rest => c.toString ++ describedBy escapes value bound rest

/-- Tells what is known of files. -/
def stat (arguments : List String) : Work Nat := do
  let given ← Work.options "L/dereference f/file-system c/format: /printf: t/terse /cached:" arguments
  if given.operands.isEmpty then Work.misuse 1 "missing operand"
  let (format, escapes) := match given.lastOf? ["c", "printf"] with
    | some "printf" => ((given.last? "printf").getD "", true)
    | some _ => ((given.last? "c").getD "" ++ "\n", false)
    | none => ("  File: %N\n  Size: %-10s\tBlocks: %-10b IO Block: %-6o %F\nDevice: 0,1\tInode: %-11i Links: %h\n" ++
        "Access: (%04a/%10A)  Uid: (    0/    root)   Gid: (    0/    root)\nAccess: %x\nModify: %y\nChange: %z\n Birth: %w\n",
        false)
  let mut status := 0
  for path in given.operands do
    match ← Work.inspect (given.has "L") (if path = "-" then "/dev/stdin" else path) with
    | .error cause =>
      Work.warn ("cannot statx " ++ quoted path ++ ": " ++ cause.message)
      status := 1
    | .ok (id, inode) =>
      let names ← Work.namesOf inode
      Work.put (describedBy escapes (described path id inode names) (format.length + 1) format.toList)
  return status

end Pkgset.Tool
