import Pkgset.Tool.Work

/-!
# Reading bit by bit

A program that may stop early reads no more than it needs: it takes lines or characters
off an intake, which asks for more when it has none left. A dash stands for the
standard input.
-/

namespace Pkgset.Tool
open Kernel

/-- A file that is being read: its descriptor, what has been read of it but not been taken
    yet, whether there is no more, and why it cannot be read on. -/
structure Intake where
  descriptor : Nat
  waiting : List Char
  ended : Bool
  fault : Option Cause

namespace Intake

/-- The standard input. -/
def standard : Intake := ⟨0, [], false, none⟩

/-- Starts to read a file. -/
def start (path : String) : Work (Except Cause Intake) := do
  if path = "-" then return .ok standard
  return (← Work.act (Act.openFile path .input 0)).map fun descriptor => ⟨descriptor, [], false, none⟩

/-- Ends reading. -/
def stop (intake : Intake) : Work Unit := do
  if intake.descriptor ≠ 0 then Work.act (Act.close intake.descriptor)

/-- Asks for more. -/
def more (intake : Intake) : Work Intake := do
  if intake.ended then return intake
  match ← Work.act (Act.read intake.descriptor Act.pipeLimit) with
  | .error cause => return { intake with ended := true, fault := some cause }
  | .ok part =>
    if part.isEmpty then return { intake with ended := true }
    return { intake with waiting := intake.waiting ++ (Raw.ofArray part).toList }

/-- Asks for more until what is waiting passes a test, within a number of times. -/
def moreUntil (intake : Intake) (test : List Char → Bool) : Nat → Work Intake
  | 0 => return intake
  | bound + 1 => do
    if intake.ended || test intake.waiting then return intake
    moreUntil (← intake.more) test bound

/-- Reads all that is left. -/
def all (intake : Intake) : Work Intake := intake.moreUntil (fun _ => false) Act.partLimit

/-- Takes a line off, together with the character that ends it. -/
def line (ending : Char) (intake : Intake) : Work (Option (List Char) × Intake) := do
  let intake ← intake.moreUntil (·.contains ending) Act.partLimit
  if intake.waiting.isEmpty then return (none, intake)
  let body := intake.waiting.takeWhile (· ≠ ending)
  let size := body.length + 1
  return (some (intake.waiting.take size), { intake with waiting := intake.waiting.drop size })

/-- Gives back what has not been taken, if the file can be read again from some place. -/
def giveBack (intake : Intake) : Work Unit :=
  Work.act (Act.change fun world id => world.setBack id intake.descriptor intake.waiting.length)

end Intake

/-! ## Lines -/

/-- The lines of a text, each together with the character that ends it. The last one need
    not be ended. -/
def wholeLines (ending : Char) (text : List Char) : List (List Char) :=
  text.foldr (fun c lines =>
    if c = ending then [c] :: lines
    else match lines with
      | [] => [[c]]
      | line :: rest => (c :: line) :: rest) []

/-- A line without the character that ends it. -/
def bare (ending : Char) (line : List Char) : List Char := if line.getLast? = some ending then line.dropLast else line

/-- The lines of a text, without the characters that end them. -/
def linesOf (ending : Char) (text : List Char) : List (List Char) := (wholeLines ending text).map (bare ending)

/-- Whether a text is not ended by a character. -/
def isOpen (ending : Char) (text : List Char) : Bool := text.getLast?.any (· ≠ ending)

/-- Whether a path leads to the file that the standard output is written to, and there is
    something in it. -/
def Work.isOutput (path : String) : Work Bool := do
  match ← Work.call (Syscall.inspect · true "/dev/stdout"),
      ← Work.call (Syscall.inspect · true (if path = "-" then "/dev/stdin" else path)) with
  | .ok (a, _), .ok (b, inode) => return decide (a = b) && inode.isFile && inode.size != 0
  | _, _ => return false

/-- The most lines that anything is read in. -/
def lineLimit : Nat := 1000000000000

/-- Takes the lines of a file one after another, within a number of them. -/
def Intake.foldLines {σ : Type} (ending : Char) (step : σ → List Char → Work σ) : Nat → σ → Intake → Work (σ × Intake)
  | 0, state, intake => return (state, intake)
  | bound + 1, state, intake => do
    let (line, intake) ← intake.line ending
    match line with
    | none => return (state, intake)
    | some line => foldLines ending step bound (← step state line) intake

/-- Takes the lines of the files that are told, or of the standard input, one after another,
    and tells whether all could be read. -/
def Work.foldLines {σ : Type} (ending : Char) (paths : List String) (step : σ → List Char → Work σ) (start : σ) :
    Work (σ × Nat) := do
  let mut state := start
  let mut status := 0
  for path in if paths.isEmpty then ["-"] else paths do
    match ← Intake.start path with
    | .error cause =>
      Work.warn (about path cause)
      status := 1
    | .ok intake =>
      let (after, intake) ← intake.foldLines ending step lineLimit state
      state := after
      intake.stop
      if let some cause := intake.fault then
        Work.warn (about path cause)
        status := 1
  return (state, status)

/-- Does something with each line of the files that are told, or of the standard input. -/
def Work.eachLine (ending : Char) (paths : List String) (work : List Char → Work Unit) : Work Nat :=
  return (← Work.foldLines ending paths (fun _ line => work line) ()).2

end Pkgset.Tool
