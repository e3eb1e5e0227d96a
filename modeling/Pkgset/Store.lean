import Pkgset.Build.Error
import Pkgset.Build.Outputs
import Pkgset.Derivation
import Pkgset.Files.TreeHash

/-!
# The store

Every derivation has an entry in the store, with a folder for each output. A marker
completes the entry: it holds the fingerprint of the derivation and the hash of the
entry's content. An entry without a marker that fits counts as absent.
-/

namespace Pkgset

/-- What the marker of an entry says. -/
structure StoreMarker where
  version : UInt32
  name : String
  fingerprint : Fingerprint
  outputs : List String
  outputHash : String
  deriving DecidableEq, Repr

namespace StoreMarker

/-- The name of the file that holds the marker. -/
def fileName : String := ".pkgfix-complete"

/-- The JSON form of a marker. -/
def toJson (marker : StoreMarker) : Json := .record [
  ("version", .number marker.version.toNat),
  ("name", .text marker.name),
  ("fingerprint", .text marker.fingerprint.text),
  ("outputs", Json.texts marker.outputs),
  ("output_hash", .text marker.outputHash)]

/-- Reads a marker out of a JSON document. -/
def ofDocument? (document : Json.Document) : Option StoreMarker := do
  let fields ← document.fields? ["version", "name", "fingerprint", "outputs", "output_hash"]
  let version ← fields.required? 0 Json.Document.word32?
  let name ← fields.required? 1 Json.Document.text?
  let fingerprint ← fields.required? 2 Fingerprint.ofDocument?
  let outputs ← fields.required? 3 Json.Document.texts?
  let outputHash ← fields.required? 4 Json.Document.text?
  some ⟨version, name, fingerprint, outputs, outputHash⟩

/-- The text of a marker file. -/
def fileText (marker : StoreMarker) : String := marker.toJson.toText ++ "\n"

end StoreMarker

/-- A store, known by its root. -/
structure Store where
  root : String
  deriving DecidableEq, Repr

namespace Store

/-- The folder inside an entry in which phases work. -/
def workFolder : String := ".build"

/-- The folder inside an entry for temporary files. -/
def temporaryFolder : String := ".tmp"

/-- The folders inside an entry that are there only while it is built. -/
def scratch : List String := [workFolder, temporaryFolder]

/-- The names that the hash of an entry leaves out. -/
def exclusions : List String := [StoreMarker.fileName, workFolder, temporaryFolder]

/-- The entry of a derivation. -/
def entryPath (store : Store) (derivation : Derivation) : String :=
  Path.join store.root (derivation.fingerprint.short ++ "-" ++ derivation.name)

/-- Where the outputs of a derivation are, built or not. -/
def outputsFor (store : Store) (derivation : Derivation) : Outputs :=
  let entry := store.entryPath derivation
  ⟨entry, Dict.ofList (derivation.outputs.map fun output => (output, Path.join entry output))⟩

/-- A file error at a path. -/
def failure (path : String) (error : FileError) : BuildError := .store path error.message

/-- The marker of an entry, if there is one. -/
def readMarker (disk : Disk) (entry : String) : Except BuildError (Option StoreMarker) :=
  let path := Path.join entry StoreMarker.fileName
  if !disk.leadsToNode path then .ok none
  else match disk.readText path with
    | .error error => .error (failure path error)
    | .ok text =>
      match (Json.Document.ofText? text).bind StoreMarker.ofDocument? with
      | some marker => .ok (some marker)
      | none => .error (.store path "invalid marker")

/-- The outputs of an entry that is complete, belongs to the derivation and was not
    changed since. -/
def lookup (store : Store) (disk : Disk) (derivation : Derivation) : Option Outputs :=
  let outputs := store.outputsFor derivation
  match readMarker disk outputs.storePath with
  | .ok (some marker) =>
    if marker.fingerprint ≠ derivation.fingerprint then none
    else match disk.treeHash outputs.storePath exclusions with
      | .ok hash => if hash = marker.outputHash then some outputs else none
      | .error _ => none
  | _ => none

/-- Makes folders one after another, up to the first that cannot be made. -/
def makeAll : List String → Disk → Disk × Except BuildError Unit
  | [], disk => (disk, .ok ())
  | path :: rest, disk =>
    match disk.makeFolders path with
    | (disk, .ok ()) => makeAll rest disk
    | (disk, .error error) => (disk, .error (failure path error))

/-- Makes a fresh entry with empty folders; what was there is removed first. -/
def prepare (store : Store) (disk : Disk) (derivation : Derivation) : Disk × Except BuildError Outputs :=
  let outputs := store.outputsFor derivation
  let entry := outputs.storePath
  let (disk, cleared) := if disk.leadsToNode entry then disk.removeTree entry else (disk, .ok ())
  match cleared with
  | .error error => (disk, .error (failure entry error))
  | .ok () =>
    let (disk, result) := makeAll (Dict.values outputs.paths ++ scratch.map (Path.join entry)) disk
    (disk, result.map fun _ => outputs)

/-- Removes the scratch folders of an entry; one that cannot be removed stays. -/
def clearScratch (disk : Disk) (entry : String) : Disk :=
  scratch.foldl (fun disk name => (disk.removeTree (Path.join entry name)).1) disk

/-- The marker of an entry with the given content. -/
def markerFor (derivation : Derivation) (hash : String) : StoreMarker :=
  ⟨1, derivation.name, derivation.fingerprint, derivation.outputs, hash⟩

/-- Removes the scratch folders and writes the marker. -/
def commit (disk : Disk) (derivation : Derivation) (outputs : Outputs) : Disk × Except BuildError Unit :=
  let entry := outputs.storePath
  let disk := clearScratch disk entry
  match disk.treeHash entry exclusions with
  | .error error => (disk, .error (.store entry error.message))
  | .ok hash =>
    let path := Path.join entry StoreMarker.fileName
    match disk.write path (Bytes.ofText (markerFor derivation hash).fileText) with
    | .ok disk => (disk, .ok ())
    | .error error => (disk, .error (failure path error))

end Store
end Pkgset
