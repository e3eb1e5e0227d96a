import Pkgset.Build.Graph
import Pkgset.Build.Report
import Pkgset.Json.Access

/-!
# JSON forms of builds

Errors are written in a style: with or without the texts of the system, and a chain
of failed inputs in full or by its root alone. Fingerprints are written short.
-/

namespace Pkgset

/-- What written errors leave out. -/
structure ErrorStyle where
  texts : Bool
  rootOnly : Bool

/-- The style that leaves nothing out. -/
def ErrorStyle.full : ErrorStyle := ⟨true, false⟩

namespace BuildError

/-- The members of an error that is no chain. -/
def rootMembers (style : ErrorStyle) (error : BuildError) : List (String × Json) :=
  let kind (name : String) : String × Json := ("error", .text name)
  let texts (text : String) : List (String × Json) := if style.texts then [("message", .text text)] else []
  match error with
  | .phaseFailure _ _ _ => [kind "PhaseFailure", ("message", .text error.message)]
  | .dependencyFailed _ _ _ => [kind "DependencyFailed", ("message", .text error.message)]
  | .cancelled _ => [kind "Cancelled", ("message", .text error.message)]
  | .io name _ => [kind "Io", ("name", .text name)] ++ texts error.message
  | .crashed name => [kind "Io", ("name", .text name)]
  | .store path text => [kind "Store", ("path", .text path)] ++ texts text
  | .cycle => [kind "Cycle", ("message", .text error.message)]

/-- The members of an error. A chain shows its names and its root. -/
def members (style : ErrorStyle) (error : BuildError) : List (String × Json) :=
  match error with
  | .dependencyFailed _ _ _ =>
    let root : String × Json := ("root", .record (rootMembers style error.rootCause))
    if style.rootOnly then [("error", .text "DependencyFailed"), root]
    else rootMembers style error ++ [("chain", Json.texts error.chain), root]
  | other => rootMembers style other

/-- The JSON form of an error. -/
def toJson (style : ErrorStyle) (error : BuildError) : Json := .record (error.members style)

end BuildError

/-- The short JSON form of a fingerprint. -/
def Fingerprint.shortJson (fingerprint : Fingerprint) : Json := .text fingerprint.short

/-- The JSON form of outputs in reports. -/
def Outputs.reportJson (outputs : Outputs) : Json :=
  .record [("store_path", .text outputs.storePath), ("paths", Json.textTable outputs.paths)]

/-- Reads outputs out of their form in reports. -/
def Outputs.ofReportJson? (value : Json) : Option Outputs := do
  let storePath ← (value.field "store_path").text?
  let paths ← (value.field "paths").textTable?
  some ⟨storePath, paths⟩

/-- The members of a status. -/
def BuildStatus.members (style : ErrorStyle) : BuildStatus → List (String × Json)
  | .succeeded outputs cached =>
    [("status", .text "succeeded"), ("cached", .flag cached), ("outputs", outputs.reportJson)]
  | .failed error => ("status", .text "failed") :: error.members style
  | .cancelled => [("status", .text "cancelled")]

namespace BuildReport

/-- The counts of derivations built, cached, failed and called off. -/
def countsJson (report : BuildReport) : Json :=
  .list [.number report.built, .number report.cached, .number report.failed, .number report.cancelled]

/-- The JSON form of a report: its records in the order of names, and of fingerprints
    where names are equal. A fingerprint without a short form cannot be written. -/
def toJson? (style : ErrorStyle) (report : BuildReport) : Option Json := do
  let sorted := report.records.mergeSort fun (_, a) (_, b) => decide (a.name ≤ b.name)
  let records ← sorted.mapM fun (fingerprint, record) => do
    let short ← (Fingerprint.mk fingerprint).short?
    some (Json.record (record.status.members style ++ [("name", .text record.name), ("fp", .text short)]))
  let roots ← report.roots.mapM Fingerprint.short?
  some (.record [
    ("records", .list records),
    ("roots", Json.texts roots),
    ("len", .number report.size),
    ("counts", report.countsJson),
    ("success", .flag report.isSuccess)])

end BuildReport

namespace BuildGraph

/-- The JSON form of layers: each node's name and fingerprint. -/
def wavesJson (graph : BuildGraph) (waves : List (List Fingerprint)) : Json :=
  .list (waves.map fun wave => .list (wave.map fun fingerprint =>
    .list [Json.orNull ((graph.find? fingerprint).map fun node => .text node.name), fingerprint.shortJson]))

end BuildGraph
end Pkgset
