import Pkgset.Shell.Expansion

/-!
# Redirection

A command may get other descriptors than the shell. What they have led to is kept under
descriptors that other programs do not see, and is put back when the command ends.
-/

namespace Pkgset.Shell
open Kernel

/-- A change of a descriptor whose words have been expanded. -/
inductive Change where
  | open (descriptor : Nat) (path : String) (manner : Manner)
  /-- A file is written in place of an earlier one, which is not allowed everywhere. -/
  | create (descriptor : Nat) (force : Bool) (path : String)
  | copy (descriptor source : Nat)
  | close (descriptor : Nat)
  | text (descriptor : Nat) (text : String)

namespace Change

/-- The descriptor that is changed. -/
def descriptor : Change → Nat
  | .open descriptor _ _ | .create descriptor _ _ | .copy descriptor _ | .close descriptor | .text descriptor _ =>
    descriptor

end Change

namespace Redirection

/-- The least descriptor for what is put back. -/
def keptFrom : Nat := 10

/-- Copies what a descriptor leads to under a descriptor that other programs do not see. -/
def keep (descriptor : Nat) : Act (Option Nat) := fun id next => .act fun world =>
  match world.descriptor? id descriptor with
  | none => (world, next none)
  | some stream =>
    let place := world.freeDescriptor id keptFrom
    (world.connect id place (some ⟨stream, true⟩), next (some place))

/-- Lets a descriptor lead where another one does. -/
def copy (descriptor source : Nat) : Act Bool := fun id next => .act fun world =>
  match world.descriptor? id source with
  | none => (world, next false)
  | some stream => (world.connect id descriptor (some ⟨stream, false⟩), next true)

/-- Moves what a descriptor leads to under another one. -/
def move (source descriptor : Nat) : Act Unit := do
  if source = descriptor then return ()
  discard (copy descriptor source)
  Act.close source

/-- Puts back what descriptors have led to. -/
def putBack (kept : List (Nat × Option Nat)) : Act Unit :=
  kept.forM fun (descriptor, place) => do
    match place with
    | none => Act.close descriptor
    | some place => move place descriptor

/-- What a shell says of a file that cannot be opened. -/
def wording (cause : Cause) (missing : String) : String :=
  match cause with
  | .notFound | .notFolder => missing
  | cause => cause.message

/-- The permission bits of new files. -/
def newMode : Nat := 0o666

/-- Opens a file under a descriptor. -/
def openAs (descriptor : Nat) (path : String) (manner : Manner) : Run (Except Cause Unit) := do
  match ← Run.act (Act.openFile path manner newMode) with
  | .error cause => return .error cause
  | .ok found =>
    Run.act (move found descriptor)
    return .ok ()

/-- Lets a descriptor read a text. -/
def openText (descriptor : Nat) (text : String) : Run Unit := Run.act do
  let (input, output) ← Act.makePipe
  Act.change fun world id =>
    let place := world.freeDescriptor id keptFrom
    let world := world.connect id place (some ⟨output, true⟩)
    world.connect id descriptor (some ⟨input, false⟩)
  let place ← Act.look fun world id =>
    (((world.record? id).elim [] (·.descriptors)).find? fun (_, opened) => opened.stream = output).elim 0 (·.1)
  let bytes := Raw.toArray text
  if bytes.size ≤ Act.pipeLimit then discard (Act.write place bytes)
  else
    discard (Act.fork do
      Act.change fun world id => world.connect id descriptor none
      discard (Act.write place bytes)
      return 0)
  Act.close place

/-- Makes a change. It says what is wrong if that does not work. -/
def make (change : Change) : Run Bool := do
  let rich := (← get).isRich
  let refused (path : String) (cause : Cause) (doing missing : String) : Run Bool := do
    if rich then Run.complain (path ++ ": " ++ cause.message)
    else Run.complain ("cannot " ++ doing ++ " " ++ path ++ ": " ++ wording cause missing)
    return false
  match change with
  | .open descriptor path manner =>
    match ← openAs descriptor path manner with
    | .ok () => return true
    | .error cause =>
      if manner.creates then refused path cause "create" "Directory nonexistent"
      else refused path cause "open" "No such file"
  | .create descriptor force path =>
    let guarded ← if force || !(← get).has 'C' then pure false else do
      match ← Run.call (Syscall.inspect · true path) with
      | .ok (_, inode) => pure inode.isFile
      | .error _ => pure false
    if guarded then
      if rich then Run.complain (path ++ ": cannot overwrite existing file"); return false
      else refused path .present "create" ""
    else match ← openAs descriptor path .output with
      | .ok () => return true
      | .error cause => refused path cause "create" "Directory nonexistent"
  | .copy descriptor source =>
    if ← Run.act (copy descriptor source) then return true
    else
      Run.complain (decimal source ++ ": " ++ Cause.message .badDescriptor)
      return false
  | .close descriptor =>
    Run.act (Act.close descriptor)
    return true
  | .text descriptor text =>
    openText descriptor text
    return true

/-- Makes changes one after another, up to the first that does not work. What the
    descriptors have led to is kept. -/
def makeAll : List Change → List (Nat × Option Nat) → Run (List (Nat × Option Nat) × Bool)
  | [], kept => return (kept, true)
  | change :: rest, kept => do
    let descriptor := change.descriptor
    let kept ← if kept.any (·.1 = descriptor) then pure kept else do
      pure ((descriptor, ← Run.act (keep descriptor)) :: kept)
    if ← make change then makeAll rest kept else return (kept, false)

/-- Forgets what descriptors have led to. -/
def forget (kept : List (Nat × Option Nat)) : Act Unit :=
  kept.forM fun (_, place) => do
    match place with
    | none => return ()
    | some place => Act.close place

variable (hooks : Hooks)

/-- The path that a word stands for; a rich shell wants exactly one. -/
def path (word : Word) : Run String := do
  if (← get).isRich then
    match ← Expansion.fields hooks word with
    | [path] => return path
    | _ => Run.fail (String.ofList (Word.characters word) ++ ": ambiguous redirect")
  else Expansion.text hooks .start word

/-- The changes that a redirection asks for. -/
def changes (redirect : Redirect) : Run (List Change) := do
  let toBoth (change : Change) : List Change := [change, .copy 2 1]
  match redirect with
  | .input descriptor word => return [.open descriptor (← path hooks word) .input]
  | .write descriptor force word => return [.create descriptor force (← path hooks word)]
  | .append descriptor word => return [.open descriptor (← path hooks word) .addition]
  | .update descriptor word => return [.open descriptor (← path hooks word) .update]
  | .copy descriptor word =>
    let text ← Expansion.text hooks .start word
    let rich := (← get).isRich
    if text = "-" then return [.close descriptor]
    else if text ≠ "" && text.all Char.isDigit && (rich || text.length = 1) then
      return [.copy descriptor (Decimal.ofDigits text.toList)]
    else if rich && text.endsWith "-" && text.length > 1 && (text.toList.dropLast).all Char.isDigit then
      let source := Decimal.ofDigits text.toList.dropLast
      return [.copy descriptor source, .close source]
    else if rich then Run.fail (text ++ ": ambiguous redirect")
    else
      modify fun session => { session with line := session.reading }
      Run.fail "Syntax error: Bad fd number"
  | .text descriptor number =>
    let word := ((← get).texts.lookup number).getD []
    return [.text descriptor (← Expansion.text hooks .never word)]
  | .line descriptor word => return [.text descriptor ((← Expansion.text hooks .start word) ++ "\n")]
  | .writeBoth atEnd word =>
    let path ← path hooks word
    return toBoth (if atEnd then .open 1 path .addition else .create 1 false path)

/-- The changes that redirections ask for. -/
def allChanges (redirects : List Redirect) : Run (List Change) := do
  return (← redirects.mapM (changes hooks)).flatten

/-- Does something with changed descriptors, or something else if they cannot be changed.
    They are put back afterwards, unless the changes last. -/
def with_ {α : Type} (changes : List Change) (lasting : Bool) (action : List (Nat × Option Nat) → Run α)
    (otherwise : Run α) : Run α := do
  let (kept, worked) ← makeAll changes []
  try
    let result ← if worked then action kept else otherwise
    Run.act (if lasting && worked then forget kept else putBack kept)
    return result
  catch stop =>
    Run.act (putBack kept)
    throw stop

end Redirection
end Pkgset.Shell
