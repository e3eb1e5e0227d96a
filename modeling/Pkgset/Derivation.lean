import Pkgset.Derivation.Phase
import Pkgset.Fingerprint
import Pkgset.Platform
import Pkgset.Text.Quoted

/-!
# Derivations

A derivation is a recipe for a build: its inputs, phases and outputs. Its
fingerprint is the hash of the recipe with the inputs replaced by their
fingerprints, so it stands for the whole closure of the derivation.
-/

namespace Pkgset

/-- A recipe for a build, with its fingerprint. -/
inductive Derivation where
  | mk (name : String) (platforms : Option PlatformTriple) (inputs : List Derivation)
      (phases : List Phase) (outputs : List String) (fingerprint : Fingerprint)

namespace Derivation

/-- The name of the derivation. -/
def name : Derivation → String
  | .mk name _ _ _ _ _ => name

/-- The platforms it is built for, if it depends on them. -/
def platforms : Derivation → Option PlatformTriple
  | .mk _ platforms _ _ _ _ => platforms

/-- The derivations whose outputs it needs, in the order in which they are declared. -/
def inputs : Derivation → List Derivation
  | .mk _ _ inputs _ _ _ => inputs

/-- Its phases, in the order in which they run. -/
def phases : Derivation → List Phase
  | .mk _ _ _ phases _ _ => phases

/-- The names of its outputs, in ascending order. -/
def outputs : Derivation → List String
  | .mk _ _ _ _ outputs _ => outputs

/-- Its identity. -/
def fingerprint : Derivation → Fingerprint
  | .mk _ _ _ _ _ fingerprint => fingerprint

/-- The output of a derivation that declares none. -/
def defaultOutput : String := "out"

/-- The outputs of a recipe that declares the given names. -/
def outputsOf (declared : List String) : List String :=
  if declared = [] then [defaultOutput] else ascending declared

/-- The JSON form of a recipe, which its fingerprint covers. -/
def recipeJson (name : String) (inputs : List Fingerprint) (phases : List Phase) (outputs : List String)
    (platforms : Option PlatformTriple) : Json := .record [
  ("name", .text name),
  ("inputs", Json.texts (inputs.map Fingerprint.text)),
  ("phases", .list (phases.map Phase.toJson)),
  ("outputs", Json.texts outputs),
  ("platforms", Json.orNull (platforms.map PlatformTriple.toJson))]

/-- The derivation of a recipe: phases are put in order, and outputs are a set that
    is never empty. -/
def build (name : String) (platforms : Option PlatformTriple) (inputs : List Derivation) (phases : List Phase)
    (outputs : List String) : Derivation :=
  let sorted := Phase.sort phases
  let declared := outputsOf outputs
  .mk name platforms inputs sorted declared
    (Fingerprint.ofJson (recipeJson name (inputs.map fingerprint) sorted declared platforms))

/-- Results run on the machine that builds them. -/
def isNative (derivation : Derivation) : Bool :=
  match derivation.platforms with
  | none => true
  | some triple => triple.isNative

/-- Whether a standard phase has a command, in any slot. -/
def hasPhase (derivation : Derivation) (phase : StdPhase) : Bool :=
  derivation.phases.any (·.name.phase = phase)

/-- Derivations are equal when their fingerprints are. -/
def same (a b : Derivation) : Bool := a.fingerprint = b.fingerprint

/-- The inspection text of a derivation. -/
def inspect (derivation : Derivation) : String :=
  "Derivation \x7b name: " ++ Quoted.quote derivation.name ++
    ", fingerprint: " ++ Quoted.quote derivation.fingerprint.short ++
    ", inputs: " ++ Quoted.list (derivation.inputs.map name) ++
    ", phases: " ++ Quoted.list (derivation.phases.map (·.name.text)) ++
    ", outputs: " ++ Quoted.set derivation.outputs ++ " \x7d"

end Derivation
end Pkgset
