import Pkgset.Derivation.Phase

/-!
# Why a derivation has no outputs

The error of a derivation whose input failed holds the error of that input, so an
error is a chain that ends in what failed by itself.
-/

namespace Pkgset

/-- The exit status of a command: a code, unless a signal ended it. -/
structure PhaseExit where
  code : Option Int
  deriving DecidableEq, Repr

namespace PhaseExit

/-- The exit status of success. -/
def success : PhaseExit := ⟨some 0⟩

/-- The exit status of a code. -/
def ofCode (code : Int) : PhaseExit := ⟨some code⟩

/-- The exit status of a command that a signal ended. -/
def signal : PhaseExit := ⟨none⟩

/-- Whether the command succeeded. -/
def isSuccess (exit : PhaseExit) : Bool := exit.code = some 0

/-- The wording of an exit status. -/
def text (exit : PhaseExit) : String :=
  match exit.code with
  | some code => "exit code " ++ String.ofList (Decimal.ofInt code)
  | none => "no exit code (terminated by signal)"

end PhaseExit

/-- Why a derivation has no outputs. -/
inductive BuildError where
  /-- A phase ended without success. -/
  | phaseFailure (name : String) (phase : PhaseName) (code : Option Int)
  /-- An input failed. -/
  | dependencyFailed (name dependency : String) (cause : BuildError)
  /-- The build was called off. -/
  | cancelled (name : String)
  /-- A phase could not be run. -/
  | io (name message : String)
  /-- The job crashed. -/
  | crashed (name : String)
  /-- The store refused an operation. -/
  | store (path message : String)
  /-- The inputs form a cycle. -/
  | cycle
  deriving DecidableEq, Repr

namespace BuildError

/-- The wording of an error. -/
def message : BuildError → String
  | .phaseFailure name phase code =>
    "phase '" ++ phase.text ++ "' of '" ++ name ++ "' failed with " ++ (PhaseExit.mk code).text
  | .dependencyFailed name dependency _ =>
    "'" ++ name ++ "' was not built because its input '" ++ dependency ++ "' failed"
  | .cancelled name => "build of '" ++ name ++ "' was cancelled"
  | .io name message => "i/o error while building '" ++ name ++ "': " ++ message
  | .crashed name => "i/o error while building '" ++ name ++ "': build task failed"
  | .store path message => "store error at " ++ path ++ ": " ++ message
  | .cycle => "dependency cycle detected"

/-- The error at the end of the chain. -/
def rootCause : BuildError → BuildError
  | .dependencyFailed _ _ cause => rootCause cause
  | other => other

/-- The derivation that an error names, if it names one. -/
def derivation? : BuildError → Option String
  | .phaseFailure name _ _ => some name
  | .dependencyFailed name _ _ => some name
  | .cancelled name => some name
  | .io name _ => some name
  | .crashed name => some name
  | .store _ _ => none
  | .cycle => none

/-- The derivations of the chain, from the first to the one that failed by itself,
    as far as errors name them. -/
def chain : BuildError → List String
  | .dependencyFailed name _ cause => name :: chain cause
  | other => other.derivation?.toList

/-- The length of the chain above what failed by itself. -/
def depth : BuildError → Nat
  | .dependencyFailed _ _ cause => depth cause + 1
  | _ => 0

end BuildError
end Pkgset
