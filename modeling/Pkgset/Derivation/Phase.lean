import Pkgset.Json.Document

/-!
# Build phases

A phase is one command of a build. Its name is a standard phase and a slot: the
phase itself, or the hook before or after it. Names are ordered by phase, then slot.
-/

namespace Pkgset

/-- The standard phases, in the order in which they run. -/
inductive StdPhase where
  | unpack | patch | configure | build | check | install | fixup
  deriving DecidableEq, Repr

/-- Where a command stands within its phase. -/
inductive PhaseSlot where
  | pre | main | post
  deriving DecidableEq, Repr

/-- A standard phase and a slot. -/
structure PhaseName where
  phase : StdPhase
  slot : PhaseSlot
  deriving DecidableEq, Repr

/-- What a phase does: run a command, with variables of its own and in a directory
    of its own if it names them. -/
structure Command where
  text : String
  environment : Option (Dict String)
  directory : Option String
  deriving DecidableEq, Repr

/-- One command of a build. -/
structure Phase where
  name : PhaseName
  action : Command
  retryable : Bool
  deriving DecidableEq, Repr

namespace StdPhase

/-- All standard phases, in order. -/
def all : List StdPhase := [unpack, patch, configure, build, check, install, fixup]

/-- The phase's name. -/
def name : StdPhase → String
  | .unpack => "unpack"
  | .patch => "patch"
  | .configure => "configure"
  | .build => "build"
  | .check => "check"
  | .install => "install"
  | .fixup => "fixup"

/-- The place in the order of phases. -/
def rank : StdPhase → Nat
  | .unpack => 0
  | .patch => 1
  | .configure => 2
  | .build => 3
  | .check => 4
  | .install => 5
  | .fixup => 6

/-- Reads a phase's name. -/
def parse? (text : String) : Option StdPhase := all.find? (·.name = text)

/-- Reads a phase out of a JSON document. -/
def ofDocument? (document : Json.Document) : Option StdPhase := document.variant?.bind parse?

end StdPhase

namespace PhaseSlot

/-- The slot's name. -/
def name : PhaseSlot → String
  | .pre => "pre"
  | .main => "main"
  | .post => "post"

/-- The place in the order of slots. -/
def rank : PhaseSlot → Nat
  | .pre => 0
  | .main => 1
  | .post => 2

/-- Reads a slot's name. -/
def parse? (text : String) : Option PhaseSlot := [pre, main, post].find? (·.name = text)

/-- Reads a slot out of a JSON document. -/
def ofDocument? (document : Json.Document) : Option PhaseSlot := document.variant?.bind parse?

end PhaseSlot

namespace PhaseName

/-- The text of a phase name: hooks put their slot before the capitalized phase. -/
def text (name : PhaseName) : String :=
  match name.slot with
  | .main => name.phase.name
  | slot => slot.name ++ name.phase.name.capitalize

/-- The place in the order of names. -/
def rank (name : PhaseName) : Nat := 3 * name.phase.rank + name.slot.rank

/-- The JSON form of a name. -/
def toJson (name : PhaseName) : Json :=
  .record [("phase", .text name.phase.name), ("slot", .text name.slot.name)]

/-- Reads a name out of a JSON document. -/
def ofDocument? (document : Json.Document) : Option PhaseName := do
  let fields ← document.fields? ["phase", "slot"]
  let phase ← fields.required? 0 StdPhase.ofDocument?
  let slot ← fields.required? 1 PhaseSlot.ofDocument?
  some ⟨phase, slot⟩

end PhaseName

namespace Command

/-- A command without variables and directory of its own. -/
def plain (text : String) : Command := ⟨text, none, none⟩

/-- The JSON form of a command. -/
def toJson (command : Command) : Json := .record [("Cmd", .record [
  ("cmd", .text command.text),
  ("env", Json.orNull (command.environment.map Json.textTable)),
  ("cwd", Json.orNull (command.directory.map .text))])]

/-- Reads a command out of a JSON document. -/
def ofDocument? : Json.Document → Option Command
  | .record [(some name, content)] =>
    if name = "Cmd" then do
      let fields ← content.fields? ["cmd", "env", "cwd"]
      let text ← fields.required? 0 Json.Document.text?
      let environment ← fields.optional? 1 Json.Document.textTable?
      let directory ← fields.optional? 2 Json.Document.text?
      some ⟨text, environment, directory⟩
    else none
  | _ => none

end Command

namespace Phase

/-- The JSON form of a phase. -/
def toJson (phase : Phase) : Json := .record [
  ("name", phase.name.toJson),
  ("action", phase.action.toJson),
  ("retryable", .flag phase.retryable)]

/-- Reads a phase out of a JSON document. -/
def ofDocument? (document : Json.Document) : Option Phase := do
  let fields ← document.fields? ["name", "action", "retryable"]
  let name ← fields.required? 0 PhaseName.ofDocument?
  let action ← fields.required? 1 Command.ofDocument?
  let retryable ← fields.required? 2 Json.Document.flag?
  some ⟨name, action, retryable⟩

/-- Phases in the order in which they run; phases of one name keep their order. -/
def sort (phases : List Phase) : List Phase :=
  phases.mergeSort fun a b => decide (a.name.rank ≤ b.name.rank)

end Phase
end Pkgset
