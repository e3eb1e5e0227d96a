import Pkgset.Shell.Builtin.Options
import Pkgset.Shell.Locate

/-!
# The folder of a shell

A shell knows the path by which it has come to its folder, with the links in it, and
steps back along that path.
-/

namespace Pkgset.Shell.Builtin
open Kernel

/-- The steps of a path after one more. -/
def stepped (steps : List String) (name : String) : List String :=
  match name with
  | "" | "." => steps
  | ".." => steps.dropLast
  | name => steps ++ [name]

/-- The path that is reached from a folder. Two separators in front stay. -/
def reached (folder path : String) : String :=
  let start := if path.startsWith "/" then path else folder
  let front := if start.startsWith "//" && !start.startsWith "///" then "//" else "/"
  let steps := ((if path.startsWith "/" then [] else folder.splitOn "/") ++ path.splitOn "/").foldl stepped []
  front ++ "/".intercalate steps

/-- Notes the folder that the shell is in. -/
def noteFolder (path : String) (keepOld : Bool) : Run Unit := do
  let session ← get
  let export_ (name text : String) : Run Unit := do
    Run.assign name text
    modify fun session =>
      session.setVariable name { (session.find? name).getD .fresh with exported := true }
  if keepOld then export_ "OLDPWD" session.folder
  modify fun session => { session with folder := path }
  export_ "PWD" path

/-- The path of the folder without links. -/
def physicalFolder : Run String := do
  match ← Run.call Syscall.currentFolder with
  | .ok path => return path
  | .error cause =>
    Run.complain ("getcwd() failed: " ++ cause.message)
    return ""

/-- Goes to a folder; it may be told by the path of links. -/
def enter (physical : Bool) (path : String) : Run (Except Cause Unit) := do
  let session ← get
  let logical := !physical && (path.startsWith "/" || session.folder ≠ "")
  let target := if logical then reached session.folder path else path
  match ← Run.call (Syscall.enterFolder · target) with
  | .error cause => return .error cause
  | .ok () =>
    let path ← if logical then pure target else physicalFolder
    noteFolder path true
    return .ok ()

/-- Whether a path is a folder. -/
def isFolder (path : String) : Run Bool := do
  match ← Run.call (Syscall.inspect · true path) with
  | .ok (_, inode) => return inode.isFolder
  | .error _ => return false

/-- Whether the first option that decides between links and folders asks for folders. -/
def asksPhysical (options : List (Char × String)) : Bool :=
  (options.filter fun (c, _) => c = 'L' || c = 'P').getLast?.any (·.1 = 'P')

/-- Goes to another folder. -/
def cd (arguments : List String) : Run Nat := do
  let session ← get
  let rich := session.isRich
  let (found, rest) ← options [('L', false), ('P', false)] arguments
  if rich && 1 < rest.length then Run.failWith 1 "too many arguments"
  let physical := asksPhysical found
  let (target, shown) ← match rest.head? with
    | none => do
      if rich && (session.text? "HOME").isNone then Run.failWith 1 "HOME not set"
      pure ((session.text? "HOME").getD "", false)
    | some "-" => do
      if rich && (session.text? "OLDPWD").isNone then Run.failWith 1 "OLDPWD not set"
      pure ((session.text? "OLDPWD").getD "", true)
    | some path => pure (path, false)
  let isDirect := target.startsWith "/" || target = "." || target = ".." || target.startsWith "./" ||
    target.startsWith "../"
  let folders := if isDirect then [] else ((session.text? "CDPATH").getD "").splitOn ":"
  let named := if target = "" then "." else target
  let candidates := folders.map fun folder => (if folder = "" then named else folder ++ "/" ++ named, folder != "")
  let chosen ← candidates.findM? fun (path, _) => isFolder path
  let (path, fromList) := chosen.getD (target, false)
  match ← enter physical path with
  | .ok () => if shown || fromList then Run.emit ((← get).folder ++ "\n") else return 0
  | .error cause =>
    if rich then Run.failWith 1 (target ++ ": " ++ cause.message) else Run.fail ("can't cd to " ++ target)

/-- Tells the folder. -/
def pwd (arguments : List String) : Run Nat := do
  let (found, _) ← options [('L', false), ('P', false)] arguments
  let path ← if asksPhysical found then physicalFolder else pure (← get).folder
  Run.emit (path ++ "\n")

/-! ## Folders to come back to -/

/-- A path as it is listed: the home folder in front of it may be a tilde. -/
def homeward (session : Session) (full : Bool) (path : String) : String :=
  match session.text? "HOME" with
  | some home =>
    if full || home = "" || home = "/" then path
    else if path = home then "~"
    else if path.startsWith (home ++ "/") then "~" ++ (path.drop home.length).toString
    else path
  | none => path

/-- Lists the folder and those to come back to. -/
def listFolders (full : Bool) : Run Nat := do
  let session ← get
  Run.emit (" ".intercalate ((session.folder :: session.folders).map (homeward session full)) ++ "\n")

/-- The place that an argument tells, from the left or from the right, among a number. -/
def placeAmong? (count : Nat) (text : String) : Option Nat :=
  match text.toList with
  | sign :: digits =>
    if (sign = '+' || sign = '-') && !digits.isEmpty && digits.all Char.isDigit then
      let n := Decimal.ofDigits digits
      if sign = '+' then (if n < count then some n else none)
      else if n < count then some (count - 1 - n) else none
    else none
  | [] => none

/-- Whether an argument is meant to tell a place. -/
def tellsPlace (text : String) : Bool :=
  match text.toList with
  | sign :: c :: _ => (sign = '+' || sign = '-') && c.isDigit
  | _ => false

/-- Goes to a folder, or says why that does not work. -/
def enterOr (path : String) : Run Unit := do
  match ← enter false path with
  | .ok () => return ()
  | .error cause => Run.failWith 1 (path ++ ": " ++ cause.message)

/-- Goes to another folder, and notes where to come back to. -/
def pushd (arguments : List String) : Run Nat := do
  let stays := arguments.head? = some "-n"
  let rest := (if stays then arguments.drop 1 else arguments).filter (· ≠ "--")
  let session ← get
  let all := session.folder :: session.folders
  match rest with
  | [] =>
    match session.folders with
    | [] => Run.failWith 1 "no other directory"
    | next :: others =>
      if !stays then
        enterOr next
        modify fun now => { now with folders := session.folder :: others }
      listFolders false
  | text :: _ =>
    if tellsPlace text then
      match placeAmong? all.length text with
      | none => Run.failWith 1 (if all.length = 1 then "directory stack empty" else text ++ ": directory stack index out of range")
      | some n =>
        let turned := all.drop n ++ all.take n
        if !stays then enterOr (turned.headD "")
        modify fun now => { now with folders := turned.drop 1 }
        listFolders false
    else
      if text.startsWith "-" && text ≠ "-" then misuseWith (text ++ ": invalid number")
      if stays then modify fun now => { now with folders := text :: session.folders }
      else
        if text = "-" then
          match session.text? "OLDPWD" with
          | some old => enterOr old
          | none => Run.failWith 1 "OLDPWD not set"
        else enterOr text
        modify fun now => { now with folders := session.folder :: session.folders }
      listFolders false

/-- Comes back to a folder, or forgets one. -/
def popd (arguments : List String) : Run Nat := do
  let stays := arguments.head? = some "-n"
  let rest := (if stays then arguments.drop 1 else arguments).filter (· ≠ "--")
  let session ← get
  let all := session.folder :: session.folders
  let place ← match rest with
    | [] => pure 0
    | text :: _ =>
      if !tellsPlace text then misuseWith (text ++ ": invalid argument")
      else match placeAmong? all.length text with
        | some n => pure n
        | none => Run.failWith 1 (if all.length = 1 then "directory stack empty" else text ++ ": directory stack index out of range")
  match session.folders with
  | [] => Run.failWith 1 "directory stack empty"
  | next :: others =>
    if place = 0 && !stays then
      enterOr next
      modify fun now => { now with folders := others }
    else
      modify fun now => { now with folders := (all.eraseIdx (if stays && rest.isEmpty then 1 else place)).drop 1 }
    listFolders false

/-- Lists or forgets the folders to come back to. -/
def dirs (arguments : List String) : Run Nat := do
  let places := arguments.filter tellsPlace
  let (found, _) ← options [('c', false), ('l', false), ('p', false), ('v', false)] (arguments.filter (!tellsPlace ·))
  let has (c : Char) : Bool := found.any (·.1 = c)
  let session ← get
  if has 'c' then
    set { session with folders := [] }
    return 0
  let shown := (session.folder :: session.folders).map (homeward session (has 'l'))
  match places with
  | text :: _ =>
    match (placeAmong? shown.length text).bind (shown[·]?) with
    | some path => Run.emit (path ++ "\n")
    | none => Run.failWith 1 ((text.drop 1).toString ++ ": directory stack index out of range")
  | [] =>
    if has 'v' then
      Run.emit (String.join (shown.zipIdx.map fun (path, n) => (if n < 10 then " " else "") ++ decimal n ++ "  " ++ path ++ "\n"))
    else if has 'p' then Run.emit (String.join (shown.map (· ++ "\n")))
    else Run.emit (" ".intercalate shown ++ "\n")

end Pkgset.Shell.Builtin
