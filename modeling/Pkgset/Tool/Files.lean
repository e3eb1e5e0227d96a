import Pkgset.Text.Calendar
import Pkgset.Tool.Mode
import Pkgset.Tool.Words

/-!
# Programs that make, change and remove files
-/

namespace Pkgset.Tool
open Kernel

/-- How deep folders are entered. -/
def treeLimit : Nat := 10000

/-- The target of a link. -/
def Work.linkTarget? (path : String) : Work (Option String) := do
  match ← Work.inspect false path with
  | .ok (_, inode) =>
    match inode.content with
    | .link target => return some target
    | _ => return none
  | .error _ => return none

/-- The changes of permissions that a text asks for. -/
def Work.modeOf (text : String) (advises : Bool) : Work (List Mode.Change) := do
  match Mode.ofText? text with
  | some changes => return changes
  | none =>
    if advises then Work.misuse 1 ("invalid mode: " ++ quoted text) else Work.fail 1 ("invalid mode " ++ quoted text)

/-! ## Folders -/

/-- The paths that lead to a path, from the first folder on. -/
def pathsTo (path : String) : List String :=
  let start := if path.startsWith "/" then "/" else ""
  let names := (path.splitOn "/").filter (· ≠ "")
  (names.foldl (fun (found, front) name =>
    let here := if front = "" || front = "/" then front ++ name else front ++ "/" ++ name
    (found ++ [here], here)) (([] : List String), start)).1

/-- Makes the folders that a path leads through. -/
def makeParents (path : String) (say : String → Work Unit) : Work (Except (String × Cause) Unit) := do
  for front in pathsTo path do
    match ← Work.call (Syscall.makeFolder · front 0o777) with
    | .ok () => say front
    | .error cause =>
      if cause = .present then
        if !(← Work.isFolder front) then return .error (front, .notFolder)
      else if !(← Work.isFolder front) then return .error (front, cause)
  return .ok ()

/-- Makes folders. -/
def mkdir (arguments : List String) : Work Nat := do
  let given ← Work.options "m/mode: p/parents v/verbose Z" arguments
  if given.operands.isEmpty then Work.misuse 1 "missing operand"
  let changes ← match given.last? "m" with
    | none => pure none
    | some text => do pure (some (← Work.modeOf text false))
  let name ← Work.name
  let say (path : String) : Work Unit := do
    if given.has "v" then Work.put (name ++ ": created directory " ++ quoted path ++ "\n")
  let mut status := 0
  for path in given.operands do
    let wrong (path : String) (cause : Cause) : Work Unit :=
      Work.warn ("cannot create directory " ++ quoted path ++ ": " ++ cause.message)
    let ready ← if !given.has "p" then pure true else do
      let above := (pathsTo path).dropLast.getLast?.getD ""
      match ← makeParents above say with
      | .ok () => pure true
      | .error (front, cause) =>
        wrong front cause
        pure false
    if !ready then status := 1
    else
      match ← Work.call (Syscall.makeFolder · path 0o777) with
      | .ok () =>
        say path
        if let some changes := changes then
          let mode := Mode.apply changes true (← Work.mask) 0o777
          discard (Work.call (Syscall.setMode · path mode))
      | .error cause =>
        if given.has "p" && (← Work.isFolder path) then pure ()
        else
          wrong path cause
          status := 1
  return status

/-- Removes folders that hold nothing. -/
def rmdir (arguments : List String) : Work Nat := do
  let given ← Work.options "p/parents v/verbose /ignore-fail-on-non-empty" arguments
  if given.operands.isEmpty then Work.misuse 1 "missing operand"
  let name ← Work.name
  let mut status := 0
  for operand in given.operands do
    let paths := if given.has "p" then (pathsTo operand).reverse.drop 1 else []
    let mut going := true
    for (path, isFirst) in (operand, true) :: paths.map fun path => (path, false) do
      if going then
        if given.has "v" then Work.put (name ++ ": removing directory, " ++ quoted path ++ "\n")
        match ← Work.call (Syscall.removeFolder · path) with
        | .ok () => pure ()
        | .error cause =>
          going := false
          if !(given.has "ignore-fail-on-non-empty" && cause = .notEmpty) then
            Work.warn ((if isFirst then "failed to remove " else "failed to remove directory ") ++ quoted path ++ ": " ++
              cause.message)
            status := 1
  return status

/-! ## Removing -/

/-- What a file is called that is about to be removed. -/
def kindText (inode : Inode) : String :=
  match inode.content with
  | .file bytes => if bytes.isEmpty then "regular empty file" else "regular file"
  | .folder _ _ => "directory"
  | .link _ => "symbolic link"
  | .device .null | .device .zero | .device .full => "character special file"
  | .channel _ => "fifo"

/-- How files are removed. -/
structure Removal where
  recursive : Bool
  folders : Bool
  forced : Bool
  asks : Bool
  tells : Bool

/-- Removes a file or a tree, and tells whether that has worked. -/
def removeTree (how : Removal) : Nat → String → Work Bool
  | 0, _ => return false
  | bound + 1, path => do
    let wrong (cause : Cause) : Work Bool := do
      Work.warn ("cannot remove " ++ quoted path ++ ": " ++ cause.message)
      return false
    let done (text : String) : Work Bool := do
      if how.tells then Work.put (text ++ quoted path ++ "\n")
      return true
    match ← Work.inspect false path with
    | .error cause => if how.forced && (cause = .notFound || cause = .notFolder) then return true else wrong cause
    | .ok (_, inode) =>
      if how.asks then
        Work.flush
        Work.complain ((← Work.name) ++ ": " ++ (if inode.isFolder && how.recursive && !inode.entries.isEmpty then
          "descend into directory " else "remove " ++ kindText inode ++ " ") ++ quoted path ++ "? ")
        return true
      if inode.isFolder then
        if how.recursive then
          let mut worked := true
          match ← Work.entries path with
          | .error cause => worked := ← wrong cause
          | .ok names =>
            for name in names do
              if !(← removeTree how bound (within path name)) then worked := false
          if !worked then return false
          match ← Work.call (Syscall.removeFolder · path) with
          | .ok () => done "removed directory "
          | .error cause => wrong cause
        else if how.folders then
          match ← Work.call (Syscall.removeFolder · path) with
          | .ok () => done "removed directory "
          | .error cause => wrong cause
        else wrong .isFolder
      else
        match ← Work.call (Syscall.removeName · path) with
        | .ok () => done "removed "
        | .error cause => wrong cause

/-- Removes files. -/
def rm (arguments : List String) : Work Nat := do
  let given ← Work.options
    "d/dir f/force i I R/recursive r/recursive v/verbose /interactive? /no-preserve-root /preserve-root? /one-file-system"
    arguments
  let forced := given.lastOf? ["f", "i", "I"] = some "f"
  if given.operands.isEmpty then
    if forced then return 0 else Work.misuse 1 "missing operand"
  let how : Removal := ⟨given.has "r" || given.has "R", given.has "d", forced,
    given.lastOf? ["f", "i", "I"] = some "i", given.has "v"⟩
  let mut status := 0
  for path in given.operands do
    let last := lastName path
    if how.recursive && (last = "." || last = "..") then
      Work.warn ("refusing to remove '.' or '..' directory: skipping " ++ quoted path)
      status := 1
    else if how.recursive && trimmed path = "/" && !given.has "no-preserve-root" then
      Work.warn "it is dangerous to operate recursively on '/'"
      Work.warn "use --no-preserve-root to override this failsafe"
      status := 1
    else if !(← removeTree how treeLimit path) then status := 1
  return status

/-- Removes one file. -/
def unlink (arguments : List String) : Work Nat := do
  let given ← Work.options "" arguments
  match given.operands with
  | [] => Work.misuse 1 "missing operand"
  | [path] =>
    match ← Work.call (Syscall.removeName · path) with
    | .ok () => return 0
    | .error cause => Work.fail 1 ("cannot unlink " ++ quoted path ++ ": " ++ cause.message)
  | _ :: extra :: _ => Work.misuse 1 ("extra operand " ++ quoted extra)

/-! ## Links -/

/-- How links are made. -/
structure Linking where
  symbolic : Bool
  forced : Bool
  follows : Bool
  tells : Bool
  relative : Bool

/-- The way from a folder to a path, both told by their names from the root. -/
def wayTo : List String → List String → List String
  | a :: rest, b :: others => if a = b then wayTo rest others else (a :: rest).map (fun _ => "..") ++ b :: others
  | rest, others => rest.map (fun _ => "..") ++ others

/-- The path of a folder from the root, by the folders that it is in. -/
def Work.physical? (path : String) : Work (Option String) := do
  match ← Work.inspect true path with
  | .ok (id, inode) =>
    if inode.isFolder then Work.act (Act.look fun world _ => world.pathOf? id)
    else return none
  | .error _ => return none

/-- Makes a link, and tells whether that has worked. -/
def makeLink (how : Linking) (source path : String) : Work Bool := do
  let wrong (text : String) : Work Bool := do
    Work.warn text
    return false
  let source ← if !(how.symbolic && how.relative) then pure source else do
    let folder ← Work.physical? (folderOf path)
    let above ← Work.physical? (folderOf source)
    match folder, above with
    | some folder, some above =>
      let names (text : String) : List String := (text.splitOn "/").filter (· ≠ "")
      let way := wayTo (names folder) (names above ++ [lastName source])
      pure (if way.isEmpty then "." else "/".intercalate way)
    | _, _ => pure source
  let found ← if how.symbolic then pure none else do
    match ← Work.inspect how.follows source with
    | .error cause => pure (some ("failed to access " ++ quoted source ++ ": " ++ cause.message))
    | .ok (_, inode) =>
      pure (if inode.isFolder then some (named source ++ ": hard link not allowed for directory") else none)
  if let some message := found then return ← wrong message
  if how.forced then
    match ← Work.inspect false path, ← Work.inspect false source with
    | .ok (a, inode), .ok (b, _) =>
      if !inode.isFolder && a = b && !how.symbolic && trimmed path = trimmed source then
        return ← wrong (quoted source ++ " and " ++ quoted path ++ " are the same file")
      if !inode.isFolder && !(a = b && !how.symbolic) then discard (Work.call (Syscall.removeName · path))
    | .ok (_, inode), .error _ => if !inode.isFolder then discard (Work.call (Syscall.removeName · path))
    | .error _, _ => pure ()
  let made ← if how.symbolic then Work.call (Syscall.makeLink · path source)
    else Work.call (Syscall.addName · how.follows source path)
  match made with
  | .ok () =>
    if how.tells then Work.put (quoted path ++ (if how.symbolic then " -> " else " => ") ++ quoted source ++ "\n")
    return true
  | .error cause =>
    if how.symbolic then
      wrong ("failed to create symbolic link " ++ quoted path ++
        (if source = "" then " -> " ++ quoted source else "") ++ ": " ++ cause.message)
    else if cause = .present then wrong ("failed to create hard link " ++ quoted path ++ ": " ++ cause.message)
    else wrong ("failed to create hard link " ++ quoted path ++ " => " ++ quoted source ++ ": " ++ cause.message)

/-- Why a path is no folder that something can be put into. -/
def Work.folderTrouble (path : String) : Work Cause := do
  match ← Work.inspect true path with
  | .ok _ => return .notFolder
  | .error cause => return cause

/-- Makes links. -/
def ln (arguments : List String) : Work Nat := do
  let given ← Work.options
    "b/backup? d/directory F f/force i/interactive L/logical n/no-dereference P/physical r/relative s/symbolic S/suffix: t/target-directory: T/no-target-directory v/verbose"
    arguments
  let how : Linking := ⟨given.has "s", given.lastOf? ["f", "i"] = some "f", given.lastOf? ["L", "P"] = some "L",
    given.has "v", given.has "r"⟩
  let isTarget (path : String) : Work Bool := do
    if given.has "n" && (← Work.linkTarget? path).isSome then return false else Work.isFolder path
  let makeAll (sources : List String) (folder : String) : Work Nat := do
    let mut status := 0
    for source in sources do
      if !(← makeLink how source (within folder (lastName source))) then status := 1
    return status
  let single (source path : String) : Work Nat := do
    return if ← makeLink how source path then 0 else 1
  match given.last? "t", given.operands with
  | _, [] => Work.misuse 1 "missing file operand"
  | some folder, sources =>
    if !(← Work.isFolder folder) then
      Work.fail 1 ("target directory " ++ quoted folder ++ ": " ++ (← Work.folderTrouble folder).message)
    makeAll sources folder
  | none, [source] =>
    if given.has "T" then Work.misuse 1 ("missing destination file operand after " ++ quoted source)
    makeAll [source] "."
  | none, [source, path] =>
    if !given.has "T" && (← isTarget path) then makeAll [source] path
    else single source path
  | none, operands =>
    if given.has "T" then Work.misuse 1 ("extra operand " ++ quoted ((operands.drop 2).headD ""))
    let folder := operands.getLast?.getD ""
    if ← isTarget folder then makeAll operands.dropLast folder
    else Work.fail 1 ("target " ++ quoted folder ++ ": " ++ (← Work.folderTrouble folder).message)

/-- Gives a file one more name. -/
def link (arguments : List String) : Work Nat := do
  let given ← Work.options "" arguments
  match given.operands with
  | [] => Work.misuse 1 "missing operand"
  | [source] => Work.misuse 1 ("missing operand after " ++ quoted source)
  | [source, path] =>
    match ← Work.call (Syscall.addName · false source path) with
    | .ok () => return 0
    | .error cause => Work.fail 1 ("cannot create link " ++ quoted path ++ " to " ++ quoted source ++ ": " ++ cause.message)
  | _ :: _ :: extra :: _ => Work.misuse 1 ("extra operand " ++ quoted extra)

/-- Makes pipes with names. -/
def mkfifo (arguments : List String) : Work Nat := do
  let given ← Work.options "m/mode: Z" arguments
  if given.operands.isEmpty then Work.misuse 1 "missing operand"
  let mut status := 0
  for path in given.operands do
    match ← Work.call (Syscall.makeChannel · path 0o666) with
    | .ok () =>
      if let some text := given.last? "m" then
        let changes ← Work.modeOf text false
        discard (Work.call (Syscall.setMode · path (Mode.apply changes false (← Work.mask) 0o666)))
    | .error cause =>
      Work.warn ("cannot create fifo " ++ quoted path ++ ": " ++ cause.message)
      status := 1
  return status

/-! ## Times, permissions and sizes -/

/-- The moment that digits tell, from the century or the year or the month on to the
    minute, with seconds behind a point. -/
def stamp? (now : Int) (text : String) : Option Int :=
  let (front, seconds) : String × Option Nat := match text.splitOn "." with
    | [front] => (front, some 0)
    | [front, seconds] => (front, if seconds.length = 2 then natural? seconds else none)
    | _ => ("", none)
  let pairs (digits : List Char) : List Nat :=
    (List.range (digits.length / 2)).map fun n => Decimal.ofDigits ((digits.drop (2 * n)).take 2)
  match seconds, natural? front, front.length, pairs front.toList with
  | some seconds, some _, 8, [month, day, hour, minute] =>
    moment (Moment.split now).1.year month day hour minute seconds
  | some seconds, some _, 10, [year, month, day, hour, minute] =>
    moment ((if year < 69 then 2000 else 1900) + year : Nat) month day hour minute seconds
  | some seconds, some _, 12, [century, year, month, day, hour, minute] =>
    moment (100 * century + year : Nat) month day hour minute seconds
  | _, _, _, _ => none
where
  /-- The moment of a day and a time, if there is one. -/
  moment (year : Int) (month day hour minute seconds : Nat) : Option Int :=
    if month = 0 || 12 < month || day = 0 || Day.daysOf year month < day || 23 < hour || 59 < minute || 60 < seconds then none
    else some (Day.number ⟨year, month, day⟩ * 86400 + (3600 * hour + 60 * minute + seconds : Nat))

/-- Sets the times of files, which are made if they are not there. -/
def touch (arguments : List String) : Work Nat := do
  let given ← Work.options "a c/no-create d/date: f h/no-dereference m r/reference: t: /time:" arguments
  if given.operands.isEmpty then Work.misuse 1 "missing file operand"
  let now ← Work.act (Act.look fun world _ => world.now)
  let seconds := Int.fdiv now 1000000000
  let time ← match given.last? "r", given.last? "d", given.last? "t" with
    | some path, _, _ =>
      match ← Work.inspect (!given.has "h") path with
      | .ok (_, inode) => pure inode.modified
      | .error cause => Work.fail 1 ("failed to get attributes of " ++ quoted path ++ ": " ++ cause.message)
    | none, some text, _ =>
      match Moment.ofText? seconds text with
      | some (seconds, nanoseconds) => pure (seconds * 1000000000 + nanoseconds)
      | none => Work.fail 1 ("invalid date format " ++ quoted text)
    | none, none, some text =>
      match stamp? seconds text with
      | some seconds => pure (seconds * 1000000000)
      | none => Work.fail 1 ("invalid date format " ++ quoted text)
    | none, none, none => pure now
  let follows := !given.has "h"
  let mut status := 0
  for path in given.operands do
    let ready ← match ← Work.inspect follows path with
      | .ok _ => pure (Except.ok true)
      | .error cause =>
        if given.has "c" || given.has "h" then
          pure (if cause = .notFound || cause = .notFolder then if given.has "c" then .ok false else .error cause else .error cause)
        else
          match ← Work.act (Act.openFile path ⟨false, true, true, false, false, false⟩ 0o666) with
          | .ok descriptor =>
            Work.act (Act.close descriptor)
            pure (.ok true)
          | .error cause => pure (.error cause)
    match ready with
    | .ok true =>
      if !(given.has "a" && !given.has "m") then discard (Work.call (Syscall.setTime · follows path time))
    | .ok false => pure ()
    | .error cause =>
      Work.warn ("cannot touch " ++ quoted path ++ ": " ++ (if cause = .isFolder then Cause.notFound else cause).message)
      status := 1
  return status

/-- Changes the permissions of a path and, if asked, of all in it. -/
def changeModes (given : Given) (apply : Bool → Nat → Nat) : Nat → String → Work Bool
  | 0, _ => return false
  | bound + 1, path => do
    match ← Work.inspect true path with
    | .error cause =>
      if !given.has "f" then
        if (← Work.linkTarget? path).isSome then Work.warn ("cannot operate on dangling symlink " ++ quoted path)
        else Work.warn ("cannot access " ++ quoted path ++ ": " ++ cause.message)
      return false
    | .ok (_, inode) =>
      let mode := apply inode.isFolder inode.mode
      discard (Work.call (Syscall.setMode · path mode))
      let text (mode : Nat) : String := Mode.octalText mode ++ " (" ++ Mode.letters mode ++ ")"
      if mode != inode.mode && (given.has "v" || given.has "c") then
        Work.put ("mode of " ++ quoted path ++ " changed from " ++ text inode.mode ++ " to " ++ text mode ++ "\n")
      else if given.has "v" then Work.put ("mode of " ++ quoted path ++ " retained as " ++ text mode ++ "\n")
      if !(given.has "R" && inode.isFolder) then return true
      match ← Work.entries path with
      | .error _ => return false
      | .ok names =>
        let mut worked := true
        for name in names do
          let inner := within path name
          if (← Work.linkTarget? inner).isNone then
            if !(← changeModes given apply bound inner) then worked := false
        return worked

/-- Changes the permissions of files. -/
def chmod (arguments : List String) : Work Nat := do
  let isMode (text : String) : Bool :=
    text.startsWith "-" && text.length > 1 && (text.drop 1).toString.toList.all "rwxXstugoa,+-=01234567".toList.contains &&
      !text.startsWith "--"
  let front := arguments.takeWhile (· ≠ "--")
  let mode? := front.find? isMode
  let arguments := match mode? with
    | some mode => front.erase mode ++ arguments.drop front.length
    | none => arguments
  let given ← Work.options "R/recursive c/changes f/silent f/quiet v/verbose /no-preserve-root /preserve-root /reference:" arguments
  let mask ← Work.mask
  let (apply, paths) ← match given.last? "reference", mode?, given.operands with
    | some path, _, paths =>
      match ← Work.inspect true path with
      | .ok (_, inode) => pure ((fun (_ : Bool) (_ : Nat) => inode.mode), paths)
      | .error cause => Work.fail 1 ("failed to get attributes of " ++ quoted path ++ ": " ++ cause.message)
    | none, some text, paths =>
      let changes ← Work.modeOf text true
      pure ((fun isFolder mode => Mode.apply changes isFolder mask mode), paths)
    | none, none, text :: paths =>
      if paths.isEmpty then Work.misuse 1 ("missing operand after " ++ quoted text)
      let changes ← Work.modeOf text true
      pure ((fun isFolder mode => Mode.apply changes isFolder mask mode), paths)
    | none, none, [] => Work.misuse 1 "missing operand"
  if paths.isEmpty then
    match mode? with
    | some text => Work.misuse 1 ("missing operand after " ++ quoted text)
    | none => Work.misuse 1 "missing operand"
  let mut status := 0
  for path in paths do
    if !(← changeModes given apply treeLimit path) then status := 1
    else if let some text := mode? then
      if let .ok (_, inode) ← Work.inspect true path then
        match Mode.ofText? text with
        | some changes =>
          let naive := Mode.apply changes inode.isFolder 0 inode.mode
          if naive != inode.mode then
            Work.warn (named path ++ ": new permissions are " ++ Mode.letters inode.mode ++ ", not " ++ Mode.letters naive)
            status := 1
        | none => pure ()
  return status

/-- Gives files to somebody else, who has to be known. -/
def chown (arguments : List String) : Work Nat := do
  let given ← Work.options "R/recursive c/changes f/silent v/verbose h/no-dereference H L P /reference:" arguments
  let paths := if given.has "reference" then given.operands else given.operands.drop 1
  if given.operands.isEmpty then Work.misuse 1 "missing operand"
  if paths.isEmpty then Work.misuse 1 ("missing operand after " ++ quoted (given.operands.headD ""))
  let mut status := 0
  for path in paths do
    if let .error cause ← Work.inspect (!given.has "h") path then
      Work.warn ("cannot access " ++ quoted path ++ ": " ++ cause.message)
      status := 1
  return status

/-- Cuts files to a size. -/
def truncate (arguments : List String) : Work Nat := do
  let given ← Work.options "c/no-create o/io-blocks r/reference: s/size:" arguments
  let some text := given.last? "s" | Work.misuse 1 "you must specify either '--size' or '--reference'"
  if given.operands.isEmpty then Work.misuse 1 "missing file operand"
  let (mark, body) := match text.toList with
    | c :: rest => if "+-<>/%".toList.contains c then (some c, String.ofList rest) else (none, text)
    | [] => (none, text)
  let some amount := size? body | Work.fail 1 ("Invalid number: " ++ quoted text)
  let mut status := 0
  for path in given.operands do
    let exists_ := (← Work.inspect true path).toOption.isSome
    if exists_ || !given.has "c" then
      match ← Work.act (Act.openFile path ⟨false, true, true, false, false, false⟩ 0o666) with
      | .error cause =>
        Work.warn ("cannot open " ++ quoted path ++ " for writing: " ++ cause.message)
        status := 1
      | .ok descriptor =>
        Work.act (Act.close descriptor)
        let old := match ← Work.inspect true path with
          | .ok (_, inode) => inode.size
          | .error _ => 0
        let new := match mark with
          | some '+' => old + amount
          | some '-' => old - amount
          | some '<' => min old amount
          | some '>' => max old amount
          | some '/' => old / amount * amount
          | some '%' => (old + amount - 1) / amount * amount
          | _ => amount
        discard (Work.call (Syscall.resize · path new))
  return status

end Pkgset.Tool
