import Pkgset.Stage
import Pkgset.Compose.Evaluation
import Pkgset.Compose.Expression
import Pkgset.Compose.Inspection

/-!
# JSON forms of compositions
-/

namespace Pkgset

/-- The JSON form of a component. A scope is shown by the label, role and names of its
    environment, a lazy reference by the name it follows. -/
def Component.toJson (machine : Machine) : Component → Json
  | .value data => .record [("value", data)]
  | .derivation made => .record [("drv", .list [.text made.name, .text made.fingerprint.text])]
  | .scope view => .record [("scope", .list [
      .text (machine.label view.env), Json.orNull (view.role.map fun role => .text role.name),
      Json.texts (machine.names view)])]
  | .attrs fields => .record [("attrs", .record (fieldsToJson machine fields))]
  | .lazy reference => .record [("lazy", Json.orNull (reference.target?.map .text))]
where
  /-- The JSON forms of the fields of a record. -/
  fieldsToJson (machine : Machine) : List (String × Component) → List (String × Json)
    | [] => []
    | (key, component) :: rest => (key, toJson machine component) :: fieldsToJson machine rest

/-- The JSON form of what ended without a component. -/
def Failure.toJson : Failure → Json
  | .error cause => cause.data
  | .crash => .record [("error", .text "Panic")]

/-- The JSON form of an ending. -/
def Ending.toJson (machine : Machine) : Ending → Json
  | .ok component => component.toJson machine
  | .error failure => failure.toJson

/-- The JSON form of a check. -/
def ComposeError.checkToJson : Except ComposeError Unit → Json
  | .ok () => .flag true
  | .error error => error.data

/-- The JSON form of a stage. -/
def Stage.toJson (machine : Machine) (stage : Stage) : Json := .record [
  ("index", .number stage.index), ("label", .text stage.label), ("triple", .text stage.triple.name),
  ("depends_on", Json.orNull (stage.dependsOn?.map fun index => .number index)),
  ("build_tools", Json.texts (machine.names stage.buildTools)),
  ("tools_of", .text (machine.label stage.buildTools.env)),
  ("host_libraries", Json.texts (machine.names stage.hostLibraries)),
  ("target_artifacts", Json.texts (machine.names stage.targetArtifacts))]

end Pkgset
