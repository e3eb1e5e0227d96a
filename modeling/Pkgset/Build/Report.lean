import Pkgset.Build.Error
import Pkgset.Build.Outputs
import Pkgset.Fingerprint

/-!
# Build reports

A report has one record for each derivation of a request, by fingerprint.
-/

namespace Pkgset

/-- How a derivation ended. Outputs are cached when no phase was run for them. -/
inductive BuildStatus where
  | succeeded (outputs : Outputs) (cached : Bool)
  | failed (error : BuildError)
  | cancelled
  deriving DecidableEq, Repr

namespace BuildStatus

/-- Whether there are outputs. -/
def isSucceeded : BuildStatus → Bool
  | .succeeded _ _ => true
  | _ => false

/-- Whether there is an error. -/
def isFailed : BuildStatus → Bool
  | .failed _ => true
  | _ => false

/-- The outputs, if there are some. -/
def outputs? : BuildStatus → Option Outputs
  | .succeeded outputs _ => some outputs
  | _ => none

/-- The error, if there is one. -/
def error? : BuildStatus → Option BuildError
  | .failed error => some error
  | _ => none

end BuildStatus

/-- The end of one derivation. -/
structure BuildRecord where
  name : String
  status : BuildStatus
  deriving DecidableEq, Repr

/-- The records of a request, by the texts of the fingerprints, and its roots. -/
structure BuildReport where
  records : Dict BuildRecord
  roots : List Fingerprint
  deriving DecidableEq, Repr

namespace BuildReport

/-- The report without records. -/
def empty (roots : List Fingerprint) : BuildReport := ⟨[], roots⟩

/-- The record of a fingerprint. -/
def get? (report : BuildReport) (fingerprint : Fingerprint) : Option BuildRecord :=
  Dict.get? report.records fingerprint.text

/-- Whether a fingerprint has a record. -/
def has (report : BuildReport) (fingerprint : Fingerprint) : Bool := (report.get? fingerprint).isSome

/-- Stores the record of a fingerprint, in place of an earlier one. -/
def insert (report : BuildReport) (fingerprint : Fingerprint) (record : BuildRecord) : BuildReport :=
  { report with records := Dict.insert report.records fingerprint.text record }

theorem get?_insert (report : BuildReport) (fingerprint other : Fingerprint) (record : BuildRecord) :
    (report.insert fingerprint record).get? other = if other = fingerprint then some record else report.get? other := by
  have texts : other.text = fingerprint.text ↔ other = fingerprint := by
    cases other
    cases fingerprint
    simp
  simp only [get?, insert, Dict.get?_insert, texts]

theorem has_insert (report : BuildReport) (fingerprint other : Fingerprint) (record : BuildRecord) :
    (report.insert fingerprint record).has other = (other = fingerprint || report.has other) := by
  by_cases same : other = fingerprint <;> simp [has, get?_insert, same]

/-- The status of the first record of a name, in the order of fingerprints. -/
def status? (report : BuildReport) (name : String) : Option BuildStatus :=
  ((Dict.values report.records).find? fun record => record.name = name).map (·.status)

/-- The outputs of the first record of a name. -/
def outputs? (report : BuildReport) (name : String) : Option Outputs :=
  (report.status? name).bind BuildStatus.outputs?

/-- The number of records. -/
def size (report : BuildReport) : Nat := report.records.length

/-- Whether every derivation has outputs. -/
def isSuccess (report : BuildReport) : Bool := (Dict.values report.records).all (·.status.isSucceeded)

/-- The number of records whose status passes a test. -/
def count (report : BuildReport) (test : BuildStatus → Bool) : Nat :=
  (Dict.values report.records).countP fun record => test record.status

/-- The number of derivations that were built. -/
def built (report : BuildReport) : Nat :=
  report.count fun
    | .succeeded _ cached => !cached
    | _ => false

/-- The number of derivations whose outputs were there already. -/
def cached (report : BuildReport) : Nat :=
  report.count fun
    | .succeeded _ cached => cached
    | _ => false

/-- The number of derivations that failed. -/
def failed (report : BuildReport) : Nat := report.count BuildStatus.isFailed

/-- The number of derivations that were called off. -/
def cancelled (report : BuildReport) : Nat := report.count (· = .cancelled)

end BuildReport
end Pkgset
