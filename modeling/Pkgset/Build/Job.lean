import Pkgset.Build.Config
import Pkgset.Build.Outputs
import Pkgset.Build.Error
import Pkgset.Derivation

/-!
# Jobs

A job makes the outputs of one derivation. It waits for a permit and then for the
claim on its fingerprint, looks once more whether it was called off or the outputs
are there, and else runs the phases in a fresh store entry and completes the entry.
-/

namespace Pkgset

/-- Outputs, and whether they were there before. -/
structure Realized where
  outputs : Outputs
  cached : Bool
  deriving DecidableEq, Repr

/-- What a job comes to. -/
abbrev JobResult := Except BuildError Realized

/-- A phase, and for which time it is tried. -/
structure Attempt where
  phase : Phase
  number : UInt32
  deriving DecidableEq, Repr

/-- How far a job has come. -/
inductive JobPlace where
  /-- It waits for a permit. -/
  | queued
  /-- It has a permit and waits for the claim. -/
  | admitted
  /-- It has the claim and looks whether it was called off. -/
  | claimed
  /-- It looks for outputs that are there. -/
  | looking
  /-- It makes a fresh entry. -/
  | preparing
  /-- It is about to go through the remaining phases. -/
  | between (outputs : Outputs) (rest : List Phase)
  /-- It is about to call the runner. -/
  | calling (outputs : Outputs) (attempt : Attempt) (rest : List Phase)
  /-- It waits for the runner. -/
  | running (outputs : Outputs) (attempt : Attempt) (rest : List Phase)
  /-- It completes the entry. -/
  | committing (outputs : Outputs)
  /-- It records the outputs. -/
  | recording (outputs : Outputs)
  /-- It is over. -/
  | finished (result : JobResult)

namespace JobPlace

/-- Whether a job has a permit there. -/
def holdsPermit : JobPlace → Bool
  | .queued | .finished _ => false
  | _ => true

/-- Whether a job has the claim on its fingerprint there. -/
def holdsClaim : JobPlace → Bool
  | .queued | .admitted | .finished _ => false
  | _ => true

/-- Whether a job that is called off notices it there. -/
def heedsCancel : JobPlace → Bool
  | .queued | .admitted | .claimed | .calling _ _ _ | .running _ _ _ => true
  | _ => false

end JobPlace

/-- A derivation that is being made, and the outputs of its inputs, one for each
    declared input. -/
structure Job where
  derivation : Derivation
  inputs : List Outputs
  place : JobPlace

namespace Job

/-- A job that was just scheduled. -/
def new (derivation : Derivation) (inputs : List Outputs) : Job := ⟨derivation, inputs, .queued⟩

/-- The fingerprint of the job's derivation. -/
def fingerprint (job : Job) : Fingerprint := job.derivation.fingerprint

/-- The job somewhere else. -/
def goTo (job : Job) (place : JobPlace) : Job := { job with place }

/-- The job at its end. -/
def finish (job : Job) (result : JobResult) : Job := job.goTo (.finished result)

/-- The job called off. -/
def cancel (job : Job) : Job := job.finish (.error (.cancelled job.derivation.name))

/-- Whether the check phases of a derivation run. -/
def runsCheck (config : BuildConfig) (derivation : Derivation) : Bool :=
  match config.checkPolicy with
  | .always => true
  | .never => false
  | .nativeOnly => derivation.isNative

/-- Whether a phase of a derivation is left out. -/
def skips (config : BuildConfig) (derivation : Derivation) (phase : Phase) : Bool :=
  phase.name.phase = .check && !runsCheck config derivation

/-- How often a phase may be tried, counted in 32 bits. -/
def tries (config : BuildConfig) (phase : Phase) : UInt32 :=
  if phase.retryable then 1 + config.retryAttempts else 1

/-- Goes through the remaining phases: to the call of the next that is not left out,
    or to the completion of the entry. -/
def proceed (config : BuildConfig) (job : Job) (outputs : Outputs) : List Phase → Job
  | [] => job.goTo (.committing outputs)
  | phase :: rest =>
    if skips config job.derivation phase then job.goTo (.between outputs rest)
    else job.goTo (.calling outputs ⟨phase, 1⟩ rest)

/-- The job after an exit of the runner: the next phase, another try, or the end. -/
def exited (config : BuildConfig) (job : Job) (outputs : Outputs) (attempt : Attempt) (rest : List Phase)
    (exit : PhaseExit) : Job :=
  if exit.isSuccess then job.goTo (.between outputs rest)
  else if attempt.number < tries config attempt.phase then
    job.goTo (.calling outputs { attempt with number := attempt.number + 1 } rest)
  else job.finish (.error (.phaseFailure job.derivation.name attempt.phase.name exit.code))

end Job
end Pkgset
