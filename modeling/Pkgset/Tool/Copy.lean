import Pkgset.Tool.Files

/-!
# Programs that copy and move files
-/

namespace Pkgset.Tool
open Kernel

/-- How files are copied. -/
structure Copying where
  recursive : Bool
  /-- Links are followed: those that are told, and those that are found on the way. -/
  followsTold : Bool
  followsFound : Bool
  keepsModes : Bool
  keepsTimes : Bool
  keepsTwins : Bool
  forced : Bool
  replaces : Bool
  skips : Bool
  updates : Bool
  linksHard : Bool
  linksSoft : Bool
  tells : Bool
  /-- A name is put behind the one of a file that is in the way. -/
  backup : Option String

/-- What has been copied: the old inodes with their new paths, and the paths that are new. -/
abbrev Copied := List (InodeId × String) × List (InodeId)

/-- What copies: it knows what has been copied. -/
abbrev Copier := StateT Copied Work

namespace Copier

/-- Says something about a file that is not copied. -/
def wrong (text : String) : Copier Bool := do
  Work.warn text
  return false

/-- Says that a file has been copied. -/
def say (how : Copying) (source path : String) : Copier Unit := do
  if how.tells then Work.put (quoted source ++ " -> " ++ quoted path ++ "\n")

/-- The inode of a path, if there is one. -/
def found? (follow : Bool) (path : String) : Copier (Option (InodeId × Inode)) := do
  match ← Work.inspect follow path with
  | .ok found => return some found
  | .error _ => return none

/-- Notes what a path has become a copy of. -/
def note (source : InodeId) (path : String) : Copier Unit := do
  match ← found? false path with
  | some (id, _) => modify fun (old, new) => ((source, path) :: old, id :: new)
  | none => return ()

/-- Gives a copy the permissions and the times of what it is a copy of. -/
def keep (how : Copying) (inode : Inode) (path : String) : Copier Unit := do
  if how.keepsModes then discard (Work.call (Syscall.setMode · path inode.mode))
  if how.keepsTimes then discard (Work.call (Syscall.setTime · false path inode.modified))

/-- Copies the content of a file. -/
def content (how : Copying) (source path : String) (inode : Inode) (old : Option Inode) : Copier Bool := do
  match ← Work.act (Act.readFile source) with
  | .error cause => wrong ("cannot open " ++ quoted source ++ " for reading: " ++ cause.message)
  | .ok bytes =>
    let opened ← Work.act (Act.openFile path .output (inode.mode &&& 0o777))
    match opened with
    | .error cause =>
      let cause := if cause = .isFolder && old.isNone then Cause.notFolder else cause
      if old.isNone && (← Work.linkTarget? path).isSome then
        wrong ("not writing through dangling symlink " ++ quoted path)
      else wrong ("cannot create regular file " ++ quoted path ++ ": " ++ cause.message)
    | .ok descriptor =>
      discard (Work.act (Act.write descriptor bytes))
      Work.act (Act.close descriptor)
      keep how inode path
      return true

/-- Copies a file, a link or a tree, and tells whether that has worked. -/
def copy (how : Copying) (inTree : Bool) : Nat → String → String → Copier Bool
  | 0, _, _ => return false
  | bound + 1, source, path => do
    let follows := if inTree then how.followsFound else how.followsTold
    match ← Work.inspect follows source with
    | .error cause => wrong ("cannot stat " ++ quoted source ++ ": " ++ cause.message)
    | .ok (id, inode) =>
      if inode.isFolder && !how.recursive then
        return ← wrong ("-r not specified; omitting directory " ++ quoted source)
      let writesThrough := !inode.isFolder && !inode.isLink && !how.replaces && !how.linksHard && !how.linksSoft
      let direct ← found? false path
      let old ← found? (writesThrough || inode.isFolder) path
      if let some (target, other) := old then
        if target = id && !(inode.isLink && how.forced) then
          if how.linksHard && !inode.isFolder then return true
          if !inode.isFolder || !inTree then
            if !inode.isFolder then return ← wrong (quoted source ++ " and " ++ quoted path ++ " are the same file")
        if inode.isFolder && !other.isFolder then
          return ← wrong ("cannot overwrite non-directory " ++ quoted path ++ " with directory " ++ quoted source)
        if !inode.isFolder && other.isFolder then
          return ← wrong ("cannot overwrite directory " ++ quoted path ++
            (if inode.isLink || true then " with non-directory" ++ (if inTree then " " ++ quoted source else "") else ""))
        if !inode.isFolder then
          if how.skips then return true
          if how.updates && inode.modified ≤ other.modified then return true
          if !inTree && (← get).2.contains target then
            return ← wrong ("will not overwrite just-created " ++ quoted path ++ " with " ++ quoted source)
          if let some suffix := how.backup then
            discard (Work.call (Syscall.rename · path (path ++ suffix)))
          else if how.replaces || inode.isLink || how.linksHard || how.linksSoft then
            if how.linksHard || how.linksSoft then
              if how.forced || how.replaces then discard (Work.call (Syscall.removeName · path))
            else discard (Work.call (Syscall.removeName · path))
      let old := if how.backup.isSome then none else old.map (·.2)
      if inode.isFolder then folder bound id inode source path direct.isSome
      else
        let twin ← if how.keepsTwins && 1 < inode.names then pure ((← get).1.lookup id) else pure none
        match twin with
        | some other =>
          if direct.isSome then discard (Work.call (Syscall.removeName · path))
          say how source path
          match ← Work.call (Syscall.addName · false other path) with
          | .ok () => return true
          | .error cause => wrong ("cannot create hard link " ++ quoted path ++ " to " ++ quoted other ++ ": " ++ cause.message)
        | none =>
          if how.linksHard then
            match ← Work.call (Syscall.addName · follows source path) with
            | .ok () =>
              say how source path
              return true
            | .error cause =>
              wrong ("cannot create hard link " ++ quoted path ++ " to " ++ quoted source ++ ": " ++ cause.message)
          else if how.linksSoft then
            match ← Work.call (Syscall.makeLink · path source) with
            | .ok () =>
              say how source path
              return true
            | .error cause =>
              wrong ("cannot create symbolic link " ++ quoted path ++ " to " ++ quoted source ++ ": " ++ cause.message)
          else
            let worked ← match inode.content with
              | .link target => do
                match ← Work.call (Syscall.makeLink · path target) with
                | .ok () =>
                  if how.keepsTimes then discard (Work.call (Syscall.setTime · false path inode.modified))
                  pure true
                | .error cause => wrong ("cannot create symbolic link " ++ quoted path ++ ": " ++ cause.message)
              | .channel _ => do
                if how.recursive then
                  match ← Work.call (Syscall.makeChannel · path (inode.mode &&& 0o777)) with
                  | .ok () => pure true
                  | .error cause => wrong ("cannot create fifo " ++ quoted path ++ ": " ++ cause.message)
                else content how source path inode old
              | _ => content how source path inode old
            if worked then
              note id path
              say how source path
            return worked
where
  /-- Copies a folder and what is in it. -/
  folder (bound : Nat) (id : InodeId) (inode : Inode) (source path : String) (isThere : Bool) : Copier Bool := do
    let inside ← Work.act (Act.look fun world self =>
      match world.walk self true path with
      | .ok spot => Syscall.isAbove world id (world.inodes.size + 1) spot.folder
      | .error _ => false)
    let isSelf := (← found? true path).any (·.1 = id)
    if inside || isSelf then
      return ← wrong ("cannot copy a directory, " ++ quoted (trimmed source) ++ ", into itself, " ++ quoted path)
    if !isThere then
      match ← Work.call (Syscall.makeFolder · path (inode.mode &&& 0o777)) with
      | .ok () => say how source path
      | .error cause => return ← wrong ("cannot create directory " ++ quoted path ++ ": " ++ cause.message)
    match ← Work.entries source with
    | .error cause => wrong ("cannot access " ++ quoted source ++ ": " ++ cause.message)
    | .ok names =>
      let mut worked := true
      for name in names do
        if !(← copy how true bound (within source name) (within path name)) then worked := false
      keep how inode path
      return worked

end Copier

/-- The name behind the one of a file that is kept. -/
def backupSuffix (given : Given) : Option String :=
  if given.has "b" || given.has "S" then some ((given.last? "S").getD "~") else none

/-- Where files go: into a folder, or one of them to a path. -/
inductive Destination where
  | into (folder : String)
  | as (path : String)

/-- Reads where files go from what is told. -/
def destination (given : Given) : Work (List String × Destination) := do
  match given.last? "t", given.operands with
  | _, [] => Work.misuse 1 "missing file operand"
  | some folder, sources =>
    if !(← Work.isFolder folder) then
      Work.fail 1 ("target directory " ++ quoted folder ++ ": " ++ (← Work.folderTrouble folder).message)
    return (sources, .into folder)
  | none, [source] => Work.misuse 1 ("missing destination file operand after " ++ quoted source)
  | none, [source, path] =>
    if !given.has "T" && (← Work.isFolder path) then return ([source], .into path)
    else return ([source], .as path)
  | none, operands =>
    if given.has "T" then Work.misuse 1 ("extra operand " ++ quoted ((operands.drop 2).headD ""))
    let folder := operands.getLast?.getD ""
    if ← Work.isFolder folder then return (operands.dropLast, .into folder)
    else Work.fail 1 ("target " ++ quoted folder ++ ": " ++ (← Work.folderTrouble folder).message)

/-- The path that a file gets. -/
def Destination.pathOf (destination : Destination) (source : String) : String :=
  match destination with
  | .into folder =>
    let name := lastName source
    within folder (if name = ".." || name = "/" then "." else name)
  | .as path => path

/-- Copies files. -/
def cp (arguments : List String) : Work Nat := do
  let given ← Work.options
    "a/archive /attributes-only b/backup? d f/force H i/interactive l/link L/dereference n/no-clobber P/no-dereference p /preserve? /no-preserve: /parents R/recursive r/recursive /reflink? /remove-destination s/symbolic-link S/suffix: /sparse: /strip-trailing-slashes t/target-directory: T/no-target-directory u/update? v/verbose x/one-file-system Z"
    arguments
  let archive := given.has "a"
  let recursive := given.has "R" || given.has "r" || archive
  let links := given.lastOf? ["L", "P", "H", "a", "d"]
  let keeps := (given.all "preserve").flatMap fun text => if text = "" then ["mode", "timestamps"] else text.splitOn ","
  let drops := (given.all "no-preserve").flatMap fun text => text.splitOn ","
  let keepsWhat (kind : String) (plain : Bool) : Bool :=
    (plain || keeps.contains kind || keeps.contains "all") && !drops.contains kind && !drops.contains "all"
  let how : Copying := {
    recursive
    followsTold := match links with
      | some "L" | some "H" => true
      | some _ => false
      | none => !recursive
    followsFound := links = some "L" || (links.isNone && !recursive)
    keepsModes := keepsWhat "mode" (given.has "p" || archive)
    keepsTimes := keepsWhat "timestamps" (given.has "p" || archive)
    keepsTwins := keepsWhat "links" (archive || given.has "d")
    forced := given.has "f"
    replaces := given.has "remove-destination"
    skips := given.lastOf? ["n", "f", "i"] = some "n"
    updates := given.has "u"
    linksHard := given.has "l"
    linksSoft := given.has "s"
    tells := given.has "v"
    backup := backupSuffix given }
  let (sources, target) ← destination given
  let run : Copier Nat := do
    let mut status := 0
    for source in sources do
      let path ← if given.has "parents" then
          match target with
          | .into folder => do
            let front := folderOf source
            if front != "." then discard (makeParents (within folder front) fun _ => pure ())
            pure (within folder (trimmed source))
          | .as path => Work.fail 1 ("with --parents, the destination must be a directory" ++ (if path = "" then "" else ""))
        else pure (target.pathOf source)
      if !(← Copier.copy how false treeLimit source path) then status := 1
    return status
  return (← run.run ([], [])).1

/-- Moves a file, and tells whether that has worked. -/
def move (given : Given) (source path : String) (made : List InodeId) : Work (Bool × List InodeId) := do
  let wrong (text : String) : Work (Bool × List InodeId) := do
    Work.warn text
    return (false, made)
  match ← Work.inspect false source with
  | .error cause => wrong ("cannot stat " ++ quoted source ++ ": " ++ cause.message)
  | .ok (id, inode) =>
    let old := (← Work.inspect false path).toOption
    if let some (target, other) := old then
      if target = id then return ← wrong (quoted source ++ " and " ++ quoted path ++ " are the same file")
      if inode.isFolder && !other.isFolder then
        return ← wrong ("cannot overwrite non-directory " ++ quoted path ++ " with directory " ++ quoted source)
      if !inode.isFolder && other.isFolder then
        return ← wrong ("cannot overwrite directory " ++ quoted path ++ " with non-directory" ++
          (if given.has "T" then "" else " " ++ quoted source))
      if given.lastOf? ["n", "f", "i"] = some "n" then return (true, made)
      if given.has "u" && inode.modified ≤ other.modified then return (true, made)
      if made.contains target then
        return ← wrong ("will not overwrite just-created " ++ quoted path ++ " with " ++ quoted source)
      if let some suffix := backupSuffix given then discard (Work.call (Syscall.rename · path (path ++ suffix)))
    match ← Work.call (Syscall.rename · source path) with
    | .ok () =>
      if given.has "v" then Work.put ("renamed " ++ quoted source ++ " -> " ++ quoted path ++ "\n")
      return (true, id :: made)
    | .error .invalid =>
      wrong ("cannot move " ++ quoted source ++ " to a subdirectory of itself, " ++ quoted path)
    | .error cause =>
      if cause = .notEmpty then
        wrong ("cannot overwrite " ++ quoted path ++ ": " ++ cause.message)
      else wrong ("cannot move " ++ quoted source ++ " to " ++ quoted path ++ ": " ++ cause.message)

/-- Moves files. -/
def mv (arguments : List String) : Work Nat := do
  let given ← Work.options
    "b/backup? f/force i/interactive n/no-clobber /no-copy /strip-trailing-slashes S/suffix: t/target-directory: T/no-target-directory u/update? v/verbose Z"
    arguments
  let (sources, target) ← destination given
  let mut status := 0
  let mut made : List InodeId := []
  for source in sources do
    let source := if given.has "strip-trailing-slashes" then trimmed source else source
    let (worked, more) ← move given source (target.pathOf source) made
    made := more
    if !worked then status := 1
  return status

/-- Copies files to where they are used from. -/
def install (arguments : List String) : Work Nat := do
  let given ← Work.options
    "b/backup? c C/compare d/directory D g/group: m/mode: o/owner: p/preserve-timestamps s/strip /strip-program: S/suffix: t/target-directory: T/no-target-directory v/verbose Z"
    arguments
  let name ← Work.name
  let changes ← match given.last? "m" with
    | none => pure none
    | some text => do pure (some (← Work.modeOf text false))
  let mode (isFolder : Bool) : Nat := changes.elim 0o755 fun changes => Mode.apply changes isFolder 0 0
  let sayFolder (path : String) : Work Unit := do
    if given.has "v" then Work.put (name ++ ": creating directory " ++ quoted path ++ "\n")
  if given.has "d" then
    if given.operands.isEmpty then Work.misuse 1 "missing file operand"
    let mut status := 0
    for path in given.operands do
      match ← makeParents path sayFolder with
      | .ok () => discard (Work.call (Syscall.setMode · path (mode true)))
      | .error (front, cause) =>
        Work.warn ("cannot create directory " ++ quoted front ++ ": " ++
          (if cause = .notFolder && front = path then Cause.present else cause).message)
        status := 1
    return status
  if given.has "D" then
    match given.last? "t", given.operands with
    | some folder, _ => discard (makeParents folder sayFolder)
    | none, [_, path] =>
      if let .error (front, cause) ← makeParents (folderOf path) sayFolder then
        if folderOf path != "." then
          Work.fail 1 ("cannot create directory " ++ quoted front ++ ": " ++ cause.message)
    | _, _ => pure ()
  let (sources, target) ← destination given
  let how : Copying := ⟨false, true, true, false, given.has "p", false, false, true, false, false, false, false, given.has "v",
    backupSuffix given⟩
  let run : Copier Nat := do
    let mut status := 0
    for source in sources do
      let path := target.pathOf source
      let isFolder ← Work.isFolder source
      if isFolder then
        Work.warn ("omitting directory " ++ quoted source)
        status := 1
      else if ← Copier.copy how false treeLimit source path then
        discard (Work.call (Syscall.setMode · path (mode false)))
      else status := 1
    return status
  return (← run.run ([], [])).1

end Pkgset.Tool
