import Pkgset.Compose.Machine

/-!
# Stages

A stage is an environment for one platform triple. Stages form a chain: each one
is built with the tools of the stage before it, so its build platform has to be
the host platform of that stage. The chain fails at the first stage that cannot
join it.
-/

namespace Pkgset

/-- What a stage is made from: a label, platforms, and overlays in their order. -/
structure StageSpec where
  label : String
  triple : PlatformTriple
  overlays : List Overlay

/-- A stage of a chain. -/
structure Stage where
  index : Nat
  label : String
  triple : PlatformTriple
  env : EnvId
  buildTools : View

namespace Stage

/-- The stage's whole environment. -/
def view (stage : Stage) : View := .whole stage.env

/-- The entries that run while building. -/
def tools (stage : Stage) : View := ⟨stage.env, some .tool⟩

/-- The entries that are linked or run on the host platform. -/
def hostLibraries (stage : Stage) : View := ⟨stage.env, some .library⟩

/-- The entries made for the target platform. -/
def targetArtifacts (stage : Stage) : View := ⟨stage.env, some .artifact⟩

/-- The stage that this one takes its tools from; the first uses its own. -/
def dependsOn? (stage : Stage) : Option Nat :=
  match stage.index with
  | 0 => none
  | before + 1 => some before

/-- The entry that names the build platform. -/
def buildPlatformEntry : String := "buildPlatform"

/-- The entry that names the host platform. -/
def hostPlatformEntry : String := "hostPlatform"

/-- The entry that names the target platform. -/
def targetPlatformEntry : String := "targetPlatform"

/-- The entry that holds the tools of the stage before. -/
def buildPackagesEntry : String := "buildPackages"

end Stage

namespace StageSpec

/-- The base layer: the registry, the platforms, and the tools of the stage before. -/
def baseLayer (spec : StageSpec) (registry : Registry) (tools : Option View) : Environment :=
  let platforms := (Environment.ofRegistry spec.label registry)
    |>.base Stage.buildPlatformEntry .library (.value (.text spec.triple.build.name))
    |>.base Stage.hostPlatformEntry .library (.value (.text spec.triple.host.name))
    |>.base Stage.targetPlatformEntry .library (.value (.text spec.triple.target.name))
  match tools with
  | some view => platforms.base Stage.buildPackagesEntry .library (.value (.scope view))
  | none => platforms

/-- The stage's environment. -/
def environment (spec : StageSpec) (registry : Registry) (tools : Option View) : Environment :=
  (spec.baseLayer registry tools).apply spec.overlays

/-- Whether a stage may follow the ones before it. A label in use is reported before
    a build platform that the last of them does not host. -/
def admission (spec : StageSpec) (earlier : List Stage) : Except ComposeError Unit :=
  if earlier.any (·.label = spec.label) then .error (.duplicateStage spec.label)
  else match earlier.getLast? with
    | some previous =>
      if previous.triple.host = spec.triple.build then .ok ()
      else .error (.platformMismatch spec.label previous.triple.host spec.triple.build)
    | none => .ok ()

end StageSpec

/-- A chain of stages. -/
structure StageGraph where
  stages : List Stage

namespace StageGraph

/-- Adds a stage to a chain. -/
def extend (registry : Registry) (machine : Machine) (graph : StageGraph) (spec : StageSpec) :
    Except ComposeError (Machine × StageGraph) := do
  spec.admission graph.stages
  let earlier := graph.stages.getLast?.map Stage.tools
  let (machine, env) := machine.install (spec.environment registry earlier)
  let stage := ⟨graph.stages.length, spec.label, spec.triple, env, earlier.getD ⟨env, some .tool⟩⟩
  .ok (machine, ⟨graph.stages ++ [stage]⟩)

/-- The chain of some specifications; there has to be at least one. -/
def build (registry : Registry) (machine : Machine) (specs : List StageSpec) :
    Except ComposeError (Machine × StageGraph) :=
  if specs.isEmpty then .error .emptyStageList
  else specs.foldlM (fun (machine, graph) spec => graph.extend registry machine spec) (machine, ⟨[]⟩)

/-- The number of stages. -/
def size (graph : StageGraph) : Nat := graph.stages.length

/-- The stage that users see. -/
def final? (graph : StageGraph) : Option Stage := graph.stages.getLast?

/-- The stage of a label. -/
def find? (graph : StageGraph) (label : String) : Option Stage := graph.stages.find? (·.label = label)

/-- Checks the declared inputs of all stages in turn, without computing any entry. -/
def validate (machine : Machine) (graph : StageGraph) : Except ComposeError Unit :=
  graph.stages.forM fun stage =>
    match machine.environment? stage.env with
    | some environment => environment.checkInputs none
    | none => .ok ()

end StageGraph
end Pkgset
