import Pkgset.Build.Shift

/-!
# Scripted phases

A runner whose commands are instructions: to exit with a code, to fail for some
times, to write a file, to wait, to call the build off. It keeps a log of the phases
that were run for each derivation.
-/

namespace Pkgset

/-- What a command tells the scripted runner to do. -/
inductive Instruction where
  | exit (code : Int)
  | signal
  | flaky (times : Nat)
  | write (output path content : String)
  | io (message : String)
  | cancel
  | cancelAndSucceed
  | sleep (milliseconds : Nat)
  | after (name phase : String)
  | crash
  | show
  | succeed
  deriving DecidableEq, Repr

namespace Instruction

/-- Cuts characters at single blanks into at most as many words; the last one takes
    the rest. -/
def words : Nat → List Char → List (List Char)
  | 0, _ => []
  | 1, cs => [cs]
  | bound + 2, cs =>
    match cs.span (· ≠ ' ') with
    | (word, []) => [word]
    | (word, _ :: rest) => word :: words (bound + 1) rest

/-- Reads an integer. -/
def integer? (text : String) : Option Int :=
  match text.toList with
  | '-' :: digits => (Decimal.read? (Nat.pow 2 31 + 1) (String.ofList digits)).map fun n => -(n : Int)
  | _ => (Decimal.read? (Nat.pow 2 31) text).map fun n => (n : Int)

/-- Reads a number that is not negative. -/
def natural? (text : String) : Option Nat := Decimal.read? (Nat.pow 2 64) text

/-- The instruction of a command: its first word and what follows. A number that
    cannot be read crashes the runner. -/
def ofCommand (command : String) : Instruction :=
  let words := (words 4 command.toList).map String.ofList
  let word (place : Nat) : String := words[place]?.getD ""
  match words.head? with
  | some "exit" => (integer? (word 1)).elim .crash .exit
  | some "signal" => .signal
  | some "flaky" => (natural? (word 1)).elim .crash .flaky
  | some "write" => .write (word 1) (word 2) (word 3)
  | some "io" => .io (((Instruction.words 2 command.toList)[1]?.elim "" String.ofList))
  | some "cancel" => .cancel
  | some "cancel-ok" => .cancelAndSucceed
  | some "sleep" => (natural? (word 1)).elim .crash .sleep
  | some "after" => .after (word 1) (word 2)
  | some "panic" => .crash
  | some "show" => .show
  | _ => .succeed

end Instruction

/-- What the scripted runner remembers: the log of each derivation's name, and how
    often a flaky command was run in each phase of a name. -/
structure ScriptState where
  log : Dict (List String)
  trials : List ((String × String) × Nat)

namespace ScriptState

/-- The state before any call. -/
def empty : ScriptState := ⟨[], []⟩

/-- Adds entries to the log of a name. -/
def note (state : ScriptState) (name : String) (entries : List String) : ScriptState :=
  { state with log := Dict.insert state.log name ((Dict.get? state.log name).getD [] ++ entries) }

/-- Whether an entry is in the log of a name. -/
def has (state : ScriptState) (name entry : String) : Bool := ((Dict.get? state.log name).getD []).contains entry

/-- How often a flaky command was run in a phase of a name. -/
def trialsOf (state : ScriptState) (name phase : String) : Nat := (state.trials.lookup (name, phase)).getD 0

/-- Counts one more run of a flaky command in a phase. -/
def countTrial (state : ScriptState) (name phase : String) : ScriptState :=
  let others := state.trials.filter fun entry => entry.1 != (name, phase)
  { state with trials := ((name, phase), state.trialsOf name phase + 1) :: others }

end ScriptState

namespace Script

/-- The reply of success. -/
def success : Reply := .exit .success

/-- Writes a file into the folder of an output. -/
def writeOutput (disk : Disk) (call : Call) (output path content : String) : Except String Disk := do
  let some folder := call.outputs.get? output | .error ("no output " ++ output)
  let target := Path.join folder path
  let (disk, made) := disk.makeFolders ((Path.parent? target).getD "")
  (made.bind fun _ => disk.write target (Bytes.ofText content)).mapError FileError.message

/-- What the log shows of the folders and inputs of a call. -/
def shown (call : Call) : List String :=
  let entry := call.outputs.storePath
  ("work=" ++ Path.join entry Store.workFolder ++ " tmp=" ++ Path.join entry Store.temporaryFolder) ::
    call.inputs.map fun input => "input=" ++ input.storePath

/-- The scripted runner's answer to a call. -/
def answer (state : ScriptState) (disk : Disk) (call : Call) : ScriptState × Disk × Response ScriptState :=
  let name := call.derivation.name
  let phase := call.attempt.phase.name.text
  let state := state.note name [phase]
  match Instruction.ofCommand call.attempt.phase.action.text with
  | .exit code => (state, disk, .now (.exit (.ofCode code)) false)
  | .signal => (state, disk, .now (.exit .signal) false)
  | .flaky times =>
    let reply := if state.trialsOf name phase < times then .exit (.ofCode 1) else success
    (state.countTrial name phase, disk, .now reply false)
  | .write output path content =>
    match writeOutput disk call output path content with
    | .ok disk => (state, disk, .now success false)
    | .error message => (state, disk, .now (.error (.io name message)) false)
  | .io message => (state, disk, .now (.error (.io name message)) false)
  | .cancel => (state, disk, .never)
  | .cancelAndSucceed => (state, disk, .now success true)
  | .sleep milliseconds => (state, disk, .later milliseconds success)
  | .after other entry => (state, disk, .once (fun state => state.has other entry) success)
  | .crash => (state, disk, .now .crash false)
  | .show => (state.note name (shown call), disk, .now success false)
  | .succeed => (state, disk, .now success false)

/-- The scripted runner. -/
def runner : Runner ScriptState := ⟨answer⟩

end Script
end Pkgset
