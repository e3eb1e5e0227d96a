import Pkgset.Derivation
import Pkgset.Json.Access

/-!
# Recipes

A recipe is what the author of a derivation writes down: its inputs are given
separately, and its platforms are still texts.
-/

namespace Pkgset

/-- The texts of the build, host and target platforms. -/
structure PlatformTexts where
  build : String
  host : String
  target : String
  deriving DecidableEq, Repr

/-- The text of one platform three times. -/
def PlatformTexts.native (platform : String) : PlatformTexts := ⟨platform, platform, platform⟩

/-- The triple that the texts name. -/
def PlatformTexts.parse (texts : PlatformTexts) : Except PlatformError PlatformTriple :=
  PlatformTriple.parse texts.build texts.host texts.target

/-- A derivation before its inputs and platforms are known. -/
structure Recipe where
  name : String
  platforms : Option PlatformTexts
  phases : List Phase
  outputs : List String
  deriving DecidableEq, Repr

/-- The derivation of a recipe with the given inputs. -/
def Recipe.derivation (recipe : Recipe) (inputs : List Derivation) : Except PlatformError Derivation := do
  let platforms ← recipe.platforms.mapM PlatformTexts.parse
  .ok (Derivation.build recipe.name platforms inputs recipe.phases recipe.outputs)

/-! ## Reading recipes out of JSON values

A phase is a list: its standard phase, slot and command, and then perhaps a record
of options. In a list of recipes, inputs are places of earlier elements.
-/

/-- Reads one platform text, or those of a triple. -/
def PlatformTexts.ofJson? : Json → Option PlatformTexts
  | .text platform => some (.native platform)
  | .list [.text build, .text host, .text target] => some ⟨build, host, target⟩
  | _ => none

/-- Reads a phase. -/
def Phase.ofJson? : Json → Option Phase
  | .list (.text phase :: .text slot :: .text command :: options) => do
    let options := options.headD .null
    let phase ← StdPhase.parse? phase
    let slot ← PhaseSlot.parse? slot
    let environment ← (options.field "env").optional? Json.textTable?
    let directory ← (options.field "cwd").optional? Json.text?
    some ⟨⟨phase, slot⟩, ⟨command, environment, directory⟩, (options.field "retryable").isTrue⟩
  | _ => none

/-- Reads a recipe. -/
def Recipe.ofJson? (value : Json) : Option Recipe := do
  let name ← (value.field "name").text?
  let platforms ← (value.field "platforms").optional? PlatformTexts.ofJson?
  let phases ← (value.field "phases").items.mapM Phase.ofJson?
  let outputs ← (value.field "outputs").texts?
  some ⟨name, platforms, phases, outputs⟩

namespace Derivation

/-- Reads one more derivation, whose inputs are among those made. -/
def next? (made : List Derivation) (value : Json) : Option (Except PlatformError Derivation) := do
  let recipe ← Recipe.ofJson? value
  let inputs ← (value.field "inputs").items.mapM fun place => do made[← place.natural?]?
  some (recipe.derivation inputs)

/-- Reads the elements of a list after those made, up to the first whose platforms
    are not understood. -/
def listFrom? (made : List Derivation) : List Json → Option (Except PlatformError (List Derivation))
  | [] => some (.ok made)
  | first :: rest => do
    match ← next? made first with
    | .ok derivation => listFrom? (made ++ [derivation]) rest
    | .error error => some (.error error)

/-- Reads a list of derivations. -/
def listOfJson? (value : Json) : Option (Except PlatformError (List Derivation)) := listFrom? [] value.items

end Derivation
end Pkgset
