import Pkgset.Build.Shift
import Pkgset.Kernel.Schedule
import Pkgset.Kernel.Snapshot

/-!
# Sandboxes

A phase runs as a command of a shell that sees little of the world: a folder to work
in, the outputs it makes, and a search path of its inputs only.
-/

namespace Pkgset

/-- Where phases run: the files of the programs there are, what they do, and the shell if
    one is chosen. -/
structure Sandbox where
  files : List (String × ByteArray)
  programs : Kernel.Programs
  shell : Option String

namespace Sandbox

/-- The shell that runs phases if none is chosen. -/
def standardShell : String := "/bin/sh"

/-- Whether a text is somewhere in another. -/
def mentions (part text : String) : Bool := 1 < (text.splitOn part).length

/-- The arguments that a shell takes before the text of a command. -/
def flags (shell : String) : List String :=
  if mentions "powershell" shell || mentions "pwsh" shell then ["-NoProfile", "-ExecutionPolicy", "Bypass", "-Command"]
  else if mentions "cmd" shell then ["/C"]
  else ["-c"]

/-- The search path that leads nowhere. -/
def noSearchPath : String := "/path-not-set"

/-- The search path of inputs: a folder in the default output of each that has one.
    There is none if a folder cannot stand in a search path. -/
def searchPath (inputs : List Outputs) : String :=
  let folders := inputs.filterMap fun input =>
    (input.get? Derivation.defaultOutput).map fun path => Path.join path "bin"
  if folders.isEmpty || folders.any (mentions ":") then noSearchPath else ":".intercalate folders

/-- The environment of a phase: fixed entries, then its outputs, then its own
    variables; a later entry replaces an earlier one. -/
def environment (call : Call) : Dict String :=
  let temporary := Path.join call.outputs.storePath Store.temporaryFolder
  Dict.ofList ([
    ("PATH", searchPath call.inputs), ("HOME", "/homeless-shelter"),
    ("TMPDIR", temporary), ("TMP", temporary), ("TEMP", temporary), ("TEMPDIR", temporary),
    ("name", call.derivation.name), ("LANG", "C"), ("LC_ALL", "C"), ("SOURCE_DATE_EPOCH", "315532800")] ++
    call.outputs.paths ++ call.attempt.phase.action.environment.getD [])

/-- Whether a text can be handed to a program. -/
def isArgument (text : String) : Bool := !text.any (· = '\x00')

/-- The number of the process that starts phases, and of the one that runs a phase. -/
def starter : Kernel.ProcessId := 1000

/-- The number of the process that runs a phase. -/
def worker : Kernel.ProcessId := starter + 1

/-- The moment from which the time of phases counts, in nanoseconds. -/
def epoch : Int := 1760000000000000000

mutual

/-- The last moment at which a node has been changed, or a given one that is later. -/
def latest (moment : Int) : Node → Int
  | .file _ traits => max moment traits.modified
  | .folder entries => latestOf moment entries
  | .link _ => moment

/-- The last moment at which one of some entries has been changed, or a given one that is
    later. -/
def latestOf (moment : Int) : List (String × Node) → Int
  | [] => moment
  | (_, node) :: rest => latestOf (latest moment node) rest

end

/-- The world in which a process is about to run in a folder. -/
def worldOf (sandbox : Sandbox) (disk : Disk) (place : Place) : Except Kernel.Cause Kernel.World := do
  let world := Kernel.Snapshot.ofDisk (Kernel.systemWorld sandbox.files) disk
  let outside (reads : Bool) : Kernel.Stream := ⟨.outside, 0, reads, !reads, false⟩
  let record (folder : Kernel.InodeId) : Kernel.Record :=
    ⟨starter, [(0, ⟨0, false⟩), (1, ⟨1, false⟩), (2, ⟨2, false⟩)], folder, 0o022, [], [], [], none⟩
  let world := { world with
    streams := #[outside true, outside false, outside false]
    records := [(worker, record Kernel.World.root)]
    processes := worker
    now := latest epoch disk.root + 1000000 }
  let folder ← world.find worker true (Raw.ofText ("/" ++ "/".intercalate place))
  return world.setRecord worker fun record => { record with folder }

/-- The path of a program: one with a separator is taken as it is, and others are looked
    for in the search path. A text that is no program is read by the standard shell. -/
def resolve (world : Kernel.World) (searchPath name : String) (arguments : List String) :
    Except Kernel.Cause (String × List String) :=
  let attempt (path : String) : Except Kernel.Cause (String × List String) :=
    match Kernel.Image.identify world worker Kernel.Image.interpreterLimit path (name :: arguments) with
    | .ok _ => .ok (path, name :: arguments)
    | .error .notExecutable => .ok (standardShell, standardShell :: path :: arguments)
    | .error cause => .error cause
  if name = "" then .error .notFound
  else if name.contains '/' then attempt name
  else
    let paths := (searchPath.splitOn ":").map fun folder => if folder = "" then name else folder ++ "/" ++ name
    paths.foldl (fun found path =>
      match found with
      | .ok image => .ok image
      | .error cause =>
        match attempt path with
        | .ok image => .ok image
        | .error .denied => .error .denied
        | .error _ => .error cause) (.error .notFound)

/-- Runs a phase in the folder that it asks for, which is made if it is missing. -/
def run (sandbox : Sandbox) (disk : Disk) (call : Call) : Disk × Except BuildError PhaseExit :=
  let command := call.attempt.phase.action
  let name := call.derivation.name
  let failure (error : FileError) : Except BuildError PhaseExit := .error (.io name error.message)
  let work := Path.join call.outputs.storePath Store.workFolder
  let folder := command.directory.elim work (Path.join work)
  let (disk, made) := disk.makeFolders folder
  match made.bind fun _ => disk.place true folder with
  | .error error => (disk, failure error)
  | .ok place =>
    let shell := sandbox.shell.getD standardShell
    let arguments := (flags shell ++ [command.text]).map Raw.ofText
    let environment := environment call
    let texts := shell :: arguments ++ Dict.keys environment ++ Dict.values environment
    if !texts.all isArgument then (disk, failure .hasNul)
    else
      let entries := environment.map fun (name, value) => Raw.ofText (name ++ "=" ++ value)
      let started : Except Kernel.Cause (Kernel.World × Kernel.Image) := do
        let world ← worldOf sandbox disk place
        let search := Raw.ofText ((Dict.get? environment "PATH").getD "")
        let (path, arguments) ← resolve world search (Raw.ofText shell) arguments
        return (world, ⟨path, arguments, entries⟩)
      match started with
      | .error _ => (disk, failure .notFound)
      | .ok (world, image) =>
        let activity := (Kernel.Act.replace sandbox.programs image) worker fun _ => .ended (.exited 127)
        let (world, ending) := Kernel.Schedule.outcome world worker activity
        (Kernel.Snapshot.toDisk world,
          .ok (match ending with
            | .exited status => .ofCode status
            | .killed _ => .signal))

/-- The runner that runs phases in a sandbox. -/
def runner (sandbox : Sandbox) : Runner Unit where
  answer := fun _ disk call =>
    let (disk, result) := sandbox.run disk call
    ((), disk, .now (match result with
      | .ok exit => .exit exit
      | .error error => .error error) false)

end Sandbox
end Pkgset
