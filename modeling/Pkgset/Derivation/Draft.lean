import Pkgset.Derivation

/-!
# Drafts

A draft is a derivation that is put together one declaration after another: platforms,
inputs, phases and outputs come in any order and number. Nothing is put in order before
the draft is built.
-/

namespace Pkgset

namespace Phase

/-- A phase that is not tried again. -/
def new (name : PhaseName) (action : Command) : Phase := ⟨name, action, false⟩

/-- The main command of a standard phase. -/
def main (phase : StdPhase) (action : Command) : Phase := new ⟨phase, .main⟩ action

/-- The hook before a standard phase. -/
def pre (phase : StdPhase) (action : Command) : Phase := new ⟨phase, .pre⟩ action

/-- The hook after a standard phase. -/
def post (phase : StdPhase) (action : Command) : Phase := new ⟨phase, .post⟩ action

end Phase

/-- One declaration of a draft. -/
inductive Declaration where
  /-- The platforms, in place of earlier ones. -/
  | platforms (triple : PlatformTriple)
  | input (derivation : Derivation)
  | inputs (derivations : List Derivation)
  | phase (phase : Phase)
  /-- The main command of a standard phase. -/
  | run (phase : StdPhase) (action : Command)
  /-- The hook before a standard phase. -/
  | pre (phase : StdPhase) (action : Command)
  /-- The hook after a standard phase. -/
  | post (phase : StdPhase) (action : Command)
  | output (name : String)

/-- A derivation that is not finished: inputs and phases as they were declared, and the
    set of outputs. -/
structure Draft where
  name : String
  platforms : Option PlatformTriple
  inputs : List Derivation
  phases : List Phase
  outputs : List String

namespace Draft

/-- A draft without declarations. -/
def new (name : String) : Draft := ⟨name, none, [], [], []⟩

/-- A draft with one phase more. -/
def addPhase (draft : Draft) (phase : Phase) : Draft := { draft with phases := draft.phases ++ [phase] }

/-- A draft with one declaration more. -/
def declare (draft : Draft) : Declaration → Draft
  | .platforms triple => { draft with platforms := some triple }
  | .input derivation => { draft with inputs := draft.inputs ++ [derivation] }
  | .inputs derivations => { draft with inputs := draft.inputs ++ derivations }
  | .phase phase => draft.addPhase phase
  | .run phase action => draft.addPhase (.main phase action)
  | .pre phase action => draft.addPhase (.pre phase action)
  | .post phase action => draft.addPhase (.post phase action)
  | .output name => { draft with outputs := insertAscending name draft.outputs }

/-- The draft of a list of declarations. -/
def of (name : String) (declarations : List Declaration) : Draft := declarations.foldl declare (new name)

/-- The derivation of a draft. -/
def build (draft : Draft) : Derivation :=
  Derivation.build draft.name draft.platforms draft.inputs draft.phases draft.outputs

end Draft
end Pkgset
