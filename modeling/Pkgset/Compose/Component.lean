import Pkgset.Derivation
import Pkgset.Role

/-!
# Components and the errors of composition

A component is what an entry of an environment stands for once it is computed.
References to environments are handles: an identity and the role that the handle
shows. A lazy reference names an entry without having computed it. A default cell is
known by the computation that made it, so its identity does not depend on what was
computed before.
-/

namespace Pkgset

/-- The identity of an environment; environments are counted from one. -/
abbrev EnvId := Nat

/-- The identity of a definition: its environment, name and layer. -/
structure SlotId where
  env : EnvId
  name : String
  layer : Nat
  deriving DecidableEq, Repr

/-- A computation that makes default cells: that of a definition, that of another
    cell, or one that is neither. -/
inductive Origin where
  | outside
  | slot (slot : SlotId)
  | cell (origin : Origin) (number : Nat)
  deriving DecidableEq, Repr

/-- The identity of a default cell: the computation that made it, and the number of
    cells that the computation had made before. -/
structure CellId where
  origin : Origin
  number : Nat
  deriving DecidableEq, Repr

/-- The computation of a cell's own default. -/
def CellId.computation (cell : CellId) : Origin := .cell cell.origin cell.number

/-- A handle on an environment that shows all entries, or those of one role. -/
structure View where
  env : EnvId
  role : Option Role
  deriving DecidableEq, Repr

/-- The handle that shows all entries. -/
def View.whole (env : EnvId) : View := ⟨env, none⟩

/-- The five kinds of components. -/
inductive Kind where
  | value | derivation | scope | attrs | lazy
  deriving DecidableEq, Repr

/-- The name of a kind. -/
def Kind.name : Kind → String
  | .value => "value"
  | .derivation => "derivation"
  | .scope => "scope"
  | .attrs => "attrs"
  | .lazy => "lazy"

mutual

/-- A computed entry: plain data, something to build, an environment, a record of
    components, or a reference that is not followed yet. -/
inductive Component where
  | value (data : Json)
  | derivation (derivation : Derivation)
  | scope (view : View)
  | attrs (fields : List (String × Component))
  | lazy (reference : LazyRef)

/-- A reference to an entry, to a component at hand, or to the default of an input. -/
inductive LazyRef where
  | entry (view : View) (name : String)
  | ready (component : Component)
  | default (input : String) (cell : CellId)

end

namespace Component

/-- The kind of a component. -/
def kind : Component → Kind
  | .value _ => .value
  | .derivation _ => .derivation
  | .scope _ => .scope
  | .attrs _ => .attrs
  | .lazy _ => .lazy

/-- A text as a component. -/
def text (content : String) : Component := .value (.text content)

end Component

/-- The name that a reference follows, if it follows one. -/
def LazyRef.target? : LazyRef → Option String
  | .entry _ name => some name
  | .default input _ => some input
  | .ready _ => none

/-- Why an entry, an injection, a composition or a stage failed. -/
inductive ComposeError where
  | duplicateName (name : String)
  | notFound (name : String)
  | missingInput (component input : String)
  | undeclaredInput (component input : String)
  | evaluationCycle (name : String) (chain : List String)
  | constructorFailed (name message : String)
  | unexpectedKind (name : String) (expected found : Kind)
  | environmentDropped (name : String)
  | emptyStageList
  | duplicateStage (label : String)
  | platformMismatch (stage : String) (expected found : Platform)
  deriving DecidableEq, Repr

namespace ComposeError

/-- The wording of an error. -/
def message : ComposeError → String
  | .duplicateName name => "descriptor '" ++ name ++ "' is already registered"
  | .notFound name => "'" ++ name ++ "' not found"
  | .missingInput component input =>
    "'" ++ component ++ "' requires input '" ++ input ++ "' which is not in the environment"
  | .undeclaredInput component input =>
    "'" ++ component ++ "' asked for input '" ++ input ++ "' it does not declare"
  | .evaluationCycle name chain =>
    "evaluation cycle while forcing '" ++ name ++ "': " ++ " -> ".intercalate chain
  | .constructorFailed name message => "constructor of '" ++ name ++ "' failed: " ++ message
  | .unexpectedKind name expected found =>
    "'" ++ name ++ "' is a " ++ found.name ++ ", expected a " ++ expected.name
  | .environmentDropped name => "environment holding '" ++ name ++ "' was dropped"
  | .emptyStageList => "no stages given"
  | .duplicateStage label => "stage label '" ++ label ++ "' is used twice"
  | .platformMismatch stage expected found =>
    "stage '" ++ stage ++ "' builds on " ++ found.name ++ ", but the previous stage hosts " ++ expected.name

/-- The name of the kind of error. -/
def kindName : ComposeError → String
  | .duplicateName _ => "DuplicateName"
  | .notFound _ => "NotFound"
  | .missingInput _ _ => "MissingInput"
  | .undeclaredInput _ _ => "UndeclaredInput"
  | .evaluationCycle _ _ => "EvaluationCycle"
  | .constructorFailed _ _ => "Constructor"
  | .unexpectedKind _ _ _ => "UnexpectedKind"
  | .environmentDropped _ => "EnvironmentDropped"
  | .emptyStageList => "EmptyStageList"
  | .duplicateStage _ => "DuplicateStage"
  | .platformMismatch _ _ _ => "PlatformMismatch"

end ComposeError

/-- What computing an entry comes to: a component or an error. -/
abbrev Outcome := Except ComposeError Component

end Pkgset
