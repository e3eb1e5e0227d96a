import Pkgset.Compose.Component

/-!
# Demands

A constructor is written as a demand: a finite tree of questions to the
environment, each with the demands that follow its possible answers. Nothing is
computed before a machine asks the questions, so a demand says exactly what a
constructor looks at, and in which order.
-/

namespace Pkgset

/-- A computation of a component out of environments. -/
inductive Demand where
  /-- The result. -/
  | done (outcome : Outcome)
  /-- A crash, which takes down every entry that is being computed. -/
  | panic
  /-- The entry of a name, in the handle's view. -/
  | get (view : View) (name : String) (next : Outcome → Demand)
  /-- The entry of a name as the layers below a layer define it. -/
  | prior (env : EnvId) (name : String) (layer : Nat) (next : Outcome → Demand)
  /-- Whether a name is visible in the handle's view. -/
  | has (view : View) (name : String) (next : Bool → Demand)
  /-- Whether a layer below a layer defines a name. -/
  | hasPrior (env : EnvId) (name : String) (layer : Nat) (next : Bool → Demand)
  /-- The component that a lazy reference leads to in one step. -/
  | force (reference : LazyRef) (next : Outcome → Demand)
  /-- The component at the end of a chain of lazy references. -/
  | settle (component : Component) (next : Outcome → Demand)
  /-- A new default cell for an input, to be filled by the body on its first use. -/
  | allot (input : String) (view : View) (body : Demand) (next : CellId → Demand)
  /-- A label for the journal of what was computed. -/
  | mark (label : String) (next : Demand)
  /-- An offer to let other threads run first. -/
  | pause (next : Demand)

namespace Demand

/-- Goes on with the outcome of a demand. -/
def bind : Demand → (Outcome → Demand) → Demand
  | .done outcome, f => f outcome
  | .panic, _ => .panic
  | .get view name next, f => .get view name fun outcome => bind (next outcome) f
  | .prior env name layer next, f => .prior env name layer fun outcome => bind (next outcome) f
  | .has view name next, f => .has view name fun answer => bind (next answer) f
  | .hasPrior env name layer next, f => .hasPrior env name layer fun answer => bind (next answer) f
  | .force reference next, f => .force reference fun outcome => bind (next outcome) f
  | .settle component next, f => .settle component fun outcome => bind (next outcome) f
  | .allot input view body next, f => .allot input view body fun cell => bind (next cell) f
  | .mark label next, f => .mark label (bind next f)
  | .pause next, f => .pause (bind next f)

/-- A component as the result. -/
def pure (component : Component) : Demand := .done (.ok component)

/-- An error as the result. -/
def fail (error : ComposeError) : Demand := .done (.error error)

/-- Goes on with the component of a demand; errors pass through. -/
def andThen (demand : Demand) (f : Component → Demand) : Demand :=
  bind demand fun
    | .ok component => f component
    | .error error => fail error

/-- The component of a demand at the end of its lazy references. -/
def settled (demand : Demand) : Demand := andThen demand fun component => .settle component .done

/-- A component at the end of its lazy references, if it is of the kind asked for. -/
def expecting (expected : Kind) (name : String) (demand : Demand) : Demand :=
  andThen (settled demand) fun component =>
    if component.kind = expected then pure component
    else fail (.unexpectedKind name expected component.kind)

/-- An entry that has to be a derivation. -/
def derivation (view : View) (name : String) : Demand := expecting .derivation name (.get view name .done)

/-- A lazy reference to a visible entry. -/
def lazy (view : View) (name : String) : Demand :=
  .has view name fun
    | true => pure (.lazy (.entry view name))
    | false => fail (.notFound name)

/-- The outcome of a demand that asks no environment anything, and the labels that
    it leaves in the journal on the way. -/
def constant? : Demand → Option (List String × Outcome)
  | .done outcome => some ([], outcome)
  | .settle (.lazy _) _ => none
  | .settle component next => constant? (next (.ok component))
  | .force (.ready component) next => constant? (next (.ok component))
  | .mark label next => (constant? next).map fun (labels, outcome) => (label :: labels, outcome)
  | .pause next => constant? next
  | _ => none

end Demand
end Pkgset
