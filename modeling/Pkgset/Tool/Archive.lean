import Pkgset.Files.Archive
import Pkgset.Shell.Pattern
import Pkgset.Text.Calendar
import Pkgset.Tool.Files
import Pkgset.Tool.Intake
import Pkgset.Tool.Paths

/-!
# Packing and unpacking files

Files are put into an archive under the paths that they were told by, without what would
lead out of the folder in which they are unpacked.
-/

namespace Pkgset.Tool
open Kernel Archive

namespace Pack

/-- What is done with an archive. -/
inductive Deed where
  | create | extract | list | append
  deriving DecidableEq

/-- How an archive is handled. -/
structure Manner where
  deed : Deed
  archive : String
  /-- How much is told: nothing, names, or rows. -/
  tells : Nat
  excluded : List String
  strips : Nat
  keeps : Bool
  toOutput : Bool
  follows : Bool
  descends : Bool
  absolute : Bool
  noTimes : Bool
  time : Option Int
  owner : Option String
  group : Option String
  numeric : Bool

/-- What is known while an archive is handled: whether something has gone wrong, what has
    been cut off paths, the members, and the inodes of those. -/
structure State where
  failed : Bool
  cut : List (String × Bool)
  members : List Member
  inodes : List (InodeId × String)
  /-- The folders that have been unpacked, with their modes and times. -/
  folders : List (String × Nat × Int)

/-- What handles an archive. -/
abbrev Packing := ReaderT Manner (StateT State Work)

namespace Packing

/-- Says that something has gone wrong. -/
def wrong (text : String) : Packing Unit := do
  Work.warn text
  modify fun state => { state with failed := true }

/-- A name as it is told: what cannot be seen is escaped. -/
def shown (name : String) : String :=
  String.join (name.toList.map fun c =>
    if c = '\\' then "\\\\" else if c.toNat < 32 || 126 < c.toNat then unseen c else c.toString)

/-- The part of a path that would lead out of a folder. -/
def frontOf (path : String) : String :=
  let pieces := path.splitOn "/"
  let ups := pieces.zipIdx.filter fun (piece, _) => piece = ".."
  match ups.getLast? with
  | some (_, place) =>
    let front := "/".intercalate (pieces.take (place + 1))
    if front.length < path.length then front ++ "/" else front
  | none => String.ofList (path.toList.takeWhile (· = '/'))

/-- A path without the part that would lead out of a folder, which is told once. -/
def tame (ofLink : Bool) (path : String) : Packing String := do
  if (← read).absolute then return path
  let front := frontOf path
  if front = "" then return path
  if !(← get).cut.contains (front, ofLink) then
    modify fun state => { state with cut := (front, ofLink) :: state.cut }
    Work.warn ("Removing leading \x60" ++ front ++ "' from " ++ (if ofLink then "hard link targets" else "member names"))
  let rest := (path.drop front.length).toString
  return if rest = "" then "./" else rest

/-- Whether a pattern matches the front of a path, up to one of its separators. -/
def matchesFront (pattern : Shell.Pattern) (path : List Char) : Bool :=
  let cuts := (path.zipIdx.filter fun (c, _) => c = '/').map (·.2)
  (cuts ++ [path.length]).any fun cut => Shell.Pattern.accepts pattern (path.take cut)

/-- Whether a path is left out. -/
def isExcluded (path : String) : Packing Bool := do
  let chars := path.toList
  let starts := 0 :: (chars.zipIdx.filter fun (c, _) => c = '/').map (·.2 + 1)
  return (← read).excluded.any fun text =>
    let pattern := Shell.Pattern.ofWritten true (text.toList.map (·, false))
    starts.any fun start => matchesFront pattern (chars.drop start)

/-- The row that tells of a member. -/
def row (manner : Manner) (member : Member) : String :=
  let letter := match member.kind with
    | .file => '-'
    | .folder => 'd'
    | .link _ => 'l'
    | .twin _ => 'h'
    | .channel => 'p'
  let ending := match member.kind with
    | .link target => " -> " ++ shown target
    | .twin target => " link to " ++ shown target
    | _ => ""
  let owners := if manner.numeric then "0/0" else
    (if member.owner = "" then "0" else member.owner) ++ "/" ++ (if member.group = "" then "0" else member.group)
  let size := digits (if member.kind = .file then member.content.size else 0)
  letter.toString ++ Mode.letters member.mode ++ " " ++ owners ++ " " ++ right (18 - owners.length) size ++ " " ++
    Moment.format member.modified 0 "%Y-%m-%d %H:%M" ++ " " ++ shown member.path ++ ending ++ "\n"

/-- Tells of a member. -/
def tell (member : Member) (least : Nat) (toError : Bool) : Packing Unit := do
  let manner ← read
  if manner.tells < least then return ()
  let text := if manner.tells = least then shown member.path ++ "\n" else row manner member
  if toError then
    Work.flush
    Work.complain text
  else Work.put text

/-! ## Packing -/

/-- Adds a member. -/
def add (member : Member) : Packing Unit := do
  let manner ← read
  tell member 1 (manner.archive = "-")
  modify fun state => { state with members := member :: state.members }

/-- Packs what is at a path, within a depth. The folder of the process may be another one
    for each of the paths that are told. -/
def pack : Nat → String → Packing Unit
  | 0, _ => return ()
  | bound + 1, path => do
    let manner ← read
    if ← isExcluded path then return ()
    match ← Work.inspect manner.follows path with
    | .error cause => wrong (shown path ++ ": Cannot stat: " ++ cause.message)
    | .ok (id, inode) =>
      let made ← Work.inspect true manner.archive
      if manner.archive ≠ "-" && made.toOption.any (·.1 = id) then
        Work.warn (path ++ ": archive cannot contain itself; not dumped")
        return ()
      let name ← tame false path
      let owner := if manner.numeric then "" else manner.owner.getD "root"
      let group := if manner.numeric then "" else manner.group.getD "root"
      let modified := manner.time.getD (Int.fdiv inode.modified 1000000000)
      let member (name : String) (kind : Archive.Kind) (content : ByteArray) : Member :=
        ⟨name, kind, inode.mode, modified, content, owner, group⟩
      let state ← get
      let twin? := if inode.isFolder || inode.names < 2 then none else state.inodes.lookup id
      if !inode.isFolder && 1 < inode.names && twin?.isNone then
        modify fun state => { state with inodes := (id, name) :: state.inodes }
      match twin?, inode.content with
      | some other, _ => add (member name (.twin other) ByteArray.empty)
      | none, .file bytes => add (member name .file bytes)
      | none, .link target => add (member name (.link target) ByteArray.empty)
      | none, .channel _ => add (member name .channel ByteArray.empty)
      | none, .device _ => pure ()
      | none, .folder _ _ =>
        add (member (if name.endsWith "/" then name else name ++ "/") .folder ByteArray.empty)
        if manner.descends then
          match ← Work.entries path with
          | .error cause => wrong (shown path ++ ": Cannot open: " ++ cause.message)
          | .ok names => for name in names do pack bound (within path name)

/-! ## Unpacking -/

/-- A path without some of its first names; nothing if there is nothing left. -/
def stripped (count : Nat) (path : String) : Option String :=
  if count = 0 then some path
  else
    let pieces := (path.splitOn "/").filter (· ≠ "")
    let rest := pieces.drop count
    if rest.isEmpty then none
    else some ("/".intercalate rest ++ (if path.endsWith "/" then "/" else ""))

/-- Makes what a member is, at a path. -/
def make (path : String) (member : Member) : Packing Unit := do
  let manner ← read
  let target := if path.endsWith "/" then (path.dropEnd 1).toString else path
  discard (makeParents target fun _ => pure ())
  let old ← Work.inspect false target
  let isFolder := member.kind = .folder
  let inTheWay : Bool := match old with
    | .ok (_, inode) => !(isFolder && inode.isFolder)
    | .error _ => false
  let restore : Packing Unit := do
    if !manner.noTimes then discard (Work.call (Syscall.setTime · false target (member.modified * 1000000000)))
  if inTheWay && !manner.keeps then
    match old with
    | .ok (_, inode) =>
      if inode.isFolder then discard (Work.call (Syscall.removeFolder · target)) else discard (Work.call (Syscall.removeName · target))
    | .error _ => pure ()
  match member.kind with
  | .folder =>
    match ← Work.call (Syscall.makeFolder · target 0o700) with
    | .error cause =>
      if cause ≠ .present || inTheWay then wrong (shown path ++ ": Cannot mkdir: " ++ cause.message)
    | .ok () => pure ()
    modify fun state => { state with folders := (target, member.mode, member.modified) :: state.folders }
  | .file =>
    match ← Work.act (Act.openFile target .fresh member.mode) with
    | .error cause => wrong (shown path ++ ": Cannot open: " ++ cause.message)
    | .ok descriptor =>
      discard (Work.act (Act.write descriptor member.content))
      Work.act (Act.close descriptor)
      discard (Work.call (Syscall.setMode · target member.mode))
      restore
  | .link other =>
    match ← Work.call (Syscall.makeLink · target other) with
    | .error cause => wrong (shown path ++ ": Cannot create symlink to '" ++ shown other ++ "': " ++ cause.message)
    | .ok () => restore
  | .twin other =>
    match ← Work.call (Syscall.addName · false other target) with
    | .error cause => wrong (shown path ++ ": Cannot hard link to '" ++ shown other ++ "': " ++ cause.message)
    | .ok () => pure ()
  | .channel =>
    match ← Work.call (Syscall.makeChannel · target member.mode) with
    | .error cause => wrong (shown path ++ ": Cannot mkfifo: " ++ cause.message)
    | .ok () => restore

/-- Whether a member is the one of a name or in the folder of that name. -/
def belongs (name path : String) : Bool :=
  let bare (text : String) : String := if text.endsWith "/" then (text.dropEnd 1).toString else text
  bare path = bare name || path.startsWith (bare name ++ "/")

/-- Goes through the members that some names choose, or all, and tells which names choose
    none. -/
def each (members : List Member) (names : List String) (work : Member → Packing Unit) : Packing Unit := do
  let mut found : List String := []
  for member in members do
    let chosen := names.filter (belongs · member.path)
    found := chosen ++ found
    if (names.isEmpty || !chosen.isEmpty) && !(← isExcluded member.path) then work member
  for name in names do
    if !found.contains name then wrong (shown name ++ ": Not found in archive")

/-- Unpacks a member. -/
def unpack (member : Member) : Packing Unit := do
  let manner ← read
  match stripped manner.strips member.path with
  | none => return ()
  | some path =>
    tell member 1 manner.toOutput
    if manner.toOutput then
      if member.kind = .file then Work.put (Raw.ofArray member.content)
    else
      let path ← tame false path
      let kind ← match member.kind with
        | .twin target => do pure (Archive.Kind.twin (← tame true ((stripped manner.strips target).getD target)))
        | kind => pure kind
      make path { member with kind }

/-- Gives the folders that have been unpacked their modes and times, the last one first. -/
def settle : Packing Unit := do
  for (path, mode, modified) in (← get).folders do
    discard (Work.call (Syscall.setMode · path mode))
    if !(← read).noTimes then discard (Work.call (Syscall.setTime · true path (modified * 1000000000)))

end Packing

/-! ## Arguments -/

/-- The options that archives are handled by. -/
def grammar : Grammar :=
  { Grammar.plain
      "c/create x/extract x/get t/list r/append u/update A/catenate d/diff f/file: C/directory: v/verbose z/gzip z/gunzip j/bzip2 J/xz a/auto-compress k/keep-old-files O/to-stdout p/preserve-permissions p/same-permissions m/touch h/dereference P/absolute-names T/files-from: X/exclude-from: /exclude: /strip-components: /mtime: /owner: /group: /numeric-owner /sort: H/format: /no-recursion /recursion /null /wildcards /no-wildcards /anchored /no-anchored /same-owner o/no-same-owner /no-same-permissions /overwrite U/unlink-first /warning: B/read-full-records b/blocking-factor: S/sparse W/verify w/interactive l/check-links s/preserve-order i/ignore-zeros /checkpoint? /totals? /index-file: /posix /old-archive /ignore-failed-read /remove-files /no-overwrite-dir /skip-old-files /recursive-unlink /delete /pax-option: /full-time /utc /force-local"
      true 64 with
    advice := fun name => "Try '" ++ name ++ " --help' or '" ++ name ++ " --usage' for more information.\n" }

/-- Says what is wrong with the arguments as a whole, and leaves. -/
def misuse {α : Type} (text : String) : Work α := ({ grammar with status := 2 } : Grammar).refuse text

/-- Options and operands in the order in which they are given; an operand has no key. -/
def sequence : Nat → List String → Work (List (String × String))
  | 0, arguments => return arguments.map ("", ·)
  | bound + 1, arguments => do
    match arguments with
    | [] => return []
    | "--" :: rest => return rest.map ("", ·)
    | first :: rest =>
      match first.toList with
      | '-' :: '-' :: _ =>
        let (found, rest) ← grammar.named (first.drop 2).toString rest
        return found :: (← sequence bound rest)
      | '-' :: c :: more =>
        let (found, rest) ← grammar.letters (c :: more) rest
        return found ++ (← sequence bound rest)
      | _ => return ("", first) :: (← sequence bound rest)

/-- Options whose letters stand in the first argument, without a dash. Their arguments
    follow in the same order. -/
def bundled : List Char → List String → Work (List (String × String) × List String)
  | [], rest => return ([], rest)
  | c :: more, rest => do
    match grammar.choices.find? fun choice => choice.letter = some c with
    | none => grammar.refuse ("invalid option -- '" ++ c.toString ++ "'")
    | some choice =>
      if choice.demand = .required then
        match rest with
        | value :: rest =>
          let (found, rest) ← bundled more rest
          return ((choice.key, value) :: found, rest)
        | [] => grammar.refuse ("option requires an argument -- '" ++ c.toString ++ "'")
      else
        let (found, rest) ← bundled more rest
        return ((choice.key, "") :: found, rest)

/-- Says that nothing more can be done, and leaves. -/
def giveUp {α : Type} (text : String) : Work α := do
  Work.warn text
  Work.fail 2 "Error is not recoverable: exiting now"

/-- Goes to a folder. -/
def enter (path : String) : Work Unit := do
  if let .error cause ← Work.call (Syscall.enterFolder · path) then giveUp (path ++ ": Cannot open: " ++ cause.message)

/-- The members of the archive at a path. -/
def load (told path : String) : Work (Option (List Member)) := do
  match ← Work.act (if path = "-" then Act.readAll 0 else Act.readFile path) with
  | .error cause => giveUp (told ++ ": Cannot open: " ++ cause.message)
  | .ok bytes => return members? bytes

/-- Writes members as the archive at a path. -/
def store (told path : String) (members : List Member) : Work Unit := do
  let bytes := Archive.written members
  if path = "-" then Work.put (Raw.ofArray bytes)
  else match ← Work.act (Act.openFile path .output 0o666) with
    | .error cause => giveUp (told ++ ": Cannot open: " ++ cause.message)
    | .ok descriptor =>
      discard (Work.act (Act.write descriptor bytes))
      Work.act (Act.close descriptor)

/-- The name before the colon of an owner that is told, or what it is alone. -/
def ownerName (text : String) : String :=
  let name := String.ofList (text.toList.takeWhile (· ≠ ':'))
  if (natural? name).isSome then (if name = "0" then "root" else "") else name

/-- The lines of files, without their ends. -/
def listedIn (path : String) (ending : Char) : Work (List String) := do
  match ← Work.input path with
  | .ok text => return (linesOf ending text.toList).map String.ofList
  | .error cause => giveUp (path ++ ": Cannot open: " ++ cause.message)

end Pack

open Pack in
/-- Packs files into an archive, or unpacks or lists one. -/
def tar (arguments : List String) : Work Nat := do
  let (front, rest) ← match arguments with
    | first :: rest => if first.startsWith "-" || first = "" then pure ([], arguments) else bundled first.toList rest
    | [] => pure ([], [])
  let given := front ++ (← sequence (arguments.length + 1) rest)
  let has (key : String) : Bool := given.any (·.1 = key)
  let last? (key : String) : Option String := (given.filter (·.1 = key)).getLast?.map (·.2)
  let deeds : List String := (given.filter fun (key, _) => ["c", "x", "t", "r", "u", "A", "d"].contains key).map (·.1)
  let deed ← match deeds.eraseDups with
    | ["c"] => pure Deed.create
    | ["x"] => pure Deed.extract
    | ["t"] => pure Deed.list
    | [] => misuse "You must specify one of the '-Acdtrux', '--delete' or '--test-label' options"
    | ["r"] | ["u"] | ["A"] | ["d"] => pure Deed.append
    | _ => misuse "You may not specify more than one '-Acdtrux', '--delete' or  '--test-label' option"
  let mut excluded := (given.filter (·.1 = "exclude")).map (·.2)
  for (key, value) in given do
    if key = "X" then excluded := excluded ++ (← listedIn value '\n')
  let now ← Work.act (Act.look fun world _ => Int.fdiv world.now 1000000000)
  let time := (last? "mtime").bind fun text => (Moment.ofText? now text).map (·.1)
  let told := (last? "f").getD "-"
  let archive := match ← Work.call Syscall.currentFolder with
    | .ok folder => if told.startsWith "/" || told = "-" then told else within folder told
    | .error _ => told
  let manner : Pack.Manner := {
    deed, archive
    tells := (given.filter (·.1 = "v")).length + (if deed = .list then 1 else 0)
    excluded
    strips := ((last? "strip-components").bind natural?).getD 0
    keeps := has "k"
    toOutput := has "O"
    follows := has "h"
    descends := !has "no-recursion"
    absolute := has "P"
    noTimes := has "m"
    time
    owner := (last? "owner").map ownerName
    group := (last? "group").map ownerName
    numeric := has "numeric-owner" }
  let mut places : List (Bool × String) := []
  for (key, value) in given do
    match key with
    | "C" => places := places ++ [(true, value)]
    | "" => places := places ++ [(false, value)]
    | "T" =>
      for line in ← listedIn value (if has "null" then '\x00' else '\n') do
        if line ≠ "" then places := places ++ [(false, line)]
    | _ => pure ()
  let names := (places.filter (!·.1)).map (·.2)
  let start : State := ⟨false, [], [], [], []⟩
  let ending (state : State) : Work Nat := do
    if state.failed then
      Work.warn "Exiting with failure status due to previous errors"
      return 2
    return 0
  let old ← match deed with
    | .create => do
      if names.isEmpty && !has "T" then misuse "Cowardly refusing to create an empty archive"
      if archive ≠ "-" then store told archive []
      pure []
    | .append => do
      match ← Work.inspect true archive with
      | .ok _ => pure ((← load told archive).getD [])
      | .error _ => pure []
    | _ => do
      match ← load told archive with
      | some members => pure members
      | none =>
        Work.warn "This does not look like a tar archive"
        Work.fail 2 "Exiting with failure status due to previous errors"
  let run (packing : Pack.Packing Unit) : Work State := do
    let ((), state) ← StateT.run (ReaderT.run packing manner) start
    return state
  match deed with
  | .create | .append =>
    let state ← run do
      for (isFolder, path) in places do
        if isFolder then enter path else Packing.pack treeLimit path
    store told archive (old ++ state.members.reverse)
    ending state
  | .list => ending (← run (Packing.each old names fun member => Packing.tell member 1 manner.toOutput))
  | .extract =>
    let state ← run do
      if names.isEmpty then
        for (_, path) in places do enter path
        Packing.each old [] Packing.unpack
        Packing.settle
      else
        for (isFolder, path) in places do
          if isFolder then enter path
          else
            Packing.each old [path] Packing.unpack
            Packing.settle
            modify fun state => { state with folders := [] }
    ending state

end Pkgset.Tool
