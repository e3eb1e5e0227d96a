import Pkgset.Json.Document

/-!
# Outputs of a build
-/

namespace Pkgset

/-- Where the outputs of a derivation are: its store entry, and a path for each
    output. -/
structure Outputs where
  storePath : String
  paths : Dict String
  deriving DecidableEq, Repr

namespace Outputs

/-- The path of an output. -/
def get? (outputs : Outputs) (name : String) : Option String := Dict.get? outputs.paths name

/-- The JSON form of outputs. -/
def toJson (outputs : Outputs) : Json := .record [
  ("store_path", .text outputs.storePath),
  ("outputs", Json.textTable outputs.paths)]

/-- Reads outputs out of a JSON document. -/
def ofDocument? (document : Json.Document) : Option Outputs := do
  let fields ← document.fields? ["store_path", "outputs"]
  let storePath ← fields.required? 0 Json.Document.text?
  let paths ← fields.required? 1 Json.Document.textTable?
  some ⟨storePath, paths⟩

end Outputs
end Pkgset
