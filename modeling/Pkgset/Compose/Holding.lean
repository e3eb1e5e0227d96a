import Pkgset.Compose.Machine

/-!
# What keeps an environment alive

An environment lives as long as a handle on it is held: by the caller, by a
component that the caller keeps, or by what another living environment contains.
Lazy references to entries hold nothing. An environment that holds itself, also
through others, is never dropped.
-/

namespace Pkgset

mutual

/-- The environments that a component holds handles on. -/
def Component.scopes : Component → List EnvId
  | .scope view => [view.env]
  | .attrs fields => scopesOfFields fields
  | .lazy reference => LazyRef.scopes reference
  | _ => []

/-- The environments that the fields of a record hold. -/
def scopesOfFields : List (String × Component) → List EnvId
  | [] => []
  | (_, component) :: rest => Component.scopes component ++ scopesOfFields rest

/-- The environments that a reference holds. -/
def LazyRef.scopes : LazyRef → List EnvId
  | .ready component => Component.scopes component
  | _ => []

end

mutual

/-- The default cells that a component refers to. -/
def Component.cells : Component → List CellId
  | .attrs fields => cellsOfFields fields
  | .lazy reference => LazyRef.cells reference
  | _ => []

/-- The default cells that the fields of a record refer to. -/
def cellsOfFields : List (String × Component) → List CellId
  | [] => []
  | (_, component) :: rest => Component.cells component ++ cellsOfFields rest

/-- The default cells that a reference refers to. -/
def LazyRef.cells : LazyRef → List CellId
  | .ready component => Component.cells component
  | .default _ cell => [cell]
  | .entry _ _ => []

end

/-- The component that a finished computation left, if it left one. -/
def Progress.component? : Progress → Option Component
  | .done (.ok component) => some component
  | _ => none

/-- The components that a definition is written with. -/
def Definition.constants : Definition → List Component
  | .value component => [component]
  | .call site => (Dict.values site.pins).filterMap fun
    | .value component => some component
    | .entry _ => none
  | _ => []

namespace Machine

/-- The component in a default cell. -/
def cellContent (machine : Machine) (cell : CellId) : List Component :=
  ((machine.cell? cell).bind fun cell => cell.progress.component?).toList

/-- The cells that can be reached from some, given those already seen. -/
def reachCells (machine : Machine) : Nat → List CellId → List CellId → List CellId
  | 0, seen, _ => seen
  | bound + 1, seen, fresh =>
    match fresh.filter fun cell => !seen.contains cell with
    | [] => seen
    | news => reachCells machine bound (seen ++ news) ((news.flatMap machine.cellContent).flatMap Component.cells)

/-- The environments that components hold, also through the cells they refer to. -/
def heldBy (machine : Machine) (components : List Component) : List EnvId :=
  let cells := machine.reachCells (machine.cells.length + 1) [] (components.flatMap Component.cells)
  (components ++ cells.flatMap machine.cellContent).flatMap Component.scopes

/-- The components that an environment contains: the constants of its definitions
    and the outcomes of those computed. -/
def contents (machine : Machine) (env : EnvId) : List Component :=
  match machine.environment? env with
  | none => []
  | some environment => environment.entries.flatMap fun (name, stack) =>
    stack.flatMap fun slot =>
      slot.definition.constants ++ (machine.slots ⟨env, name, slot.layer⟩).component?.toList

/-- The identities of the living environments. -/
def living (machine : Machine) : List EnvId :=
  ((List.range machine.environments.length).map (· + 1)).filter fun env => (machine.environment? env).isSome

/-- Drops the environments that nothing holds, until there are none. -/
def sweep (handles : List EnvId) (kept : List Component) : Nat → Machine → Machine
  | 0, machine => machine
  | bound + 1, machine =>
    let held := handles ++ machine.heldBy (kept ++ machine.living.flatMap machine.contents)
    match machine.living.filter fun env => !held.contains env with
    | [] => machine
    | lost =>
      sweep handles kept bound
        { machine with
          environments := machine.environments.mapIdx fun place environment =>
            if lost.contains (place + 1) then none else environment }

/-- Drops the environments that neither the handles nor the kept components hold. -/
def release (machine : Machine) (handles : List EnvId) (kept : List Component) : Machine :=
  sweep handles kept machine.environments.length machine

end Machine
end Pkgset
