import Pkgset.Compose.Holding
import Pkgset.Proofs.Compose.Sealing

/-!
# Demands that hand errors on

A constructor only hands errors on. Once it has got one, it asks nothing more that could
fail, as it could not hand on two, and the error is its result. It makes no cycle errors
of its own, and it refers to no default cells but those it was given or has made.
-/

namespace Pkgset

/-- Whether an error is that of an evaluation cycle. -/
def ComposeError.isCycle : ComposeError → Bool
  | .evaluationCycle _ _ => true
  | _ => false

/-- Whether an outcome is the error of an evaluation cycle. -/
def Outcome.isCycle : Outcome → Bool
  | .error error => error.isCycle
  | .ok _ => false

namespace Demand

/-- What goes on with an answer goes on with every component of known cells, and raises
    every error. -/
def Replies (given : CellId → Prop) (lawful : Option ComposeError → Outcome → Prop) : Prop :=
  (∀ component, (∀ cell ∈ component.cells, given cell) → lawful none (.ok component)) ∧
    ∀ error, lawful (some error) (.error error)

theorem Replies.mono {given : CellId → Prop} {lawful lawful' : Option ComposeError → Outcome → Prop}
    (replies : Replies given lawful) (weaker : ∀ raised outcome, lawful raised outcome → lawful' raised outcome) :
    Replies given lawful' :=
  ⟨fun component known => weaker _ _ (replies.1 component known), fun error => weaker _ _ (replies.2 error)⟩

/-- A demand refers to cells that are given and hands errors on. If an error was raised
    before, it is the result. -/
def Lawful (given : CellId → Prop) : Demand → Option ComposeError → Prop
  | .done (.ok component), none => ∀ cell ∈ component.cells, given cell
  | .done (.error error), none => error.isCycle = false
  | .done outcome, some raised => outcome = .error raised
  | .panic, _ => True
  | .get _ _ next, none => Replies given fun raised outcome => Lawful given (next outcome) raised
  | .get _ _ _, some _ => False
  | .prior _ _ _ next, none => Replies given fun raised outcome => Lawful given (next outcome) raised
  | .prior _ _ _ _, some _ => False
  | .has _ _ next, raised => ∀ answer, Lawful given (next answer) raised
  | .hasPrior _ _ _ next, raised => ∀ answer, Lawful given (next answer) raised
  | .force (.ready component) next, raised => Lawful given (next (.ok component)) raised
  | .force reference next, none =>
    (∀ cell ∈ reference.cells, given cell) ∧ Replies given fun raised outcome => Lawful given (next outcome) raised
  | .force _ _, some _ => False
  | .settle (.lazy reference) next, none =>
    (∀ cell ∈ reference.cells, given cell) ∧ Replies given fun raised outcome => Lawful given (next outcome) raised
  | .settle (.lazy _) _, some _ => False
  | .settle component next, raised => Lawful given (next (.ok component)) raised
  | .allot _ _ body next, raised => Lawful given body none ∧ ∀ cell, given cell → Lawful given (next cell) raised
  | .mark _ next, raised => Lawful given next raised
  | .pause next, raised => Lawful given next raised

theorem Lawful.of_raised {given : CellId → Prop} {error : ComposeError} (plain : error.isCycle = false)
    {demand : Demand} (lawful : demand.Lawful given (some error)) : demand.Lawful given none := by
  induction demand with
  | done outcome =>
    cases outcome with
    | ok component => cases lawful
    | error other =>
      cases lawful
      exact plain
  | panic => trivial
  | get view name next ih => exact lawful.elim
  | prior env name layer next ih => exact lawful.elim
  | has view name next ih => exact fun answer => ih answer (lawful answer)
  | hasPrior env name layer next ih => exact fun answer => ih answer (lawful answer)
  | force reference next ih =>
    cases reference with
    | ready component => exact ih _ lawful
    | entry view name => exact lawful.elim
    | default input cell => exact lawful.elim
  | settle component next ih =>
    cases component with
    | lazy reference => exact lawful.elim
    | _ => exact ih _ lawful
  | allot input view body next ihBody ih => exact ⟨lawful.1, fun cell known => ih cell (lawful.2 cell known)⟩
  | mark label next ih => exact ih lawful
  | pause next ih => exact ih lawful

theorem Lawful.follow {given : CellId → Prop} {reference : LazyRef} {next : Outcome → Demand}
    (lawful : (Demand.settle (.lazy reference) next).Lawful given none) :
    (Machine.follow reference next).Lawful given none := by
  obtain ⟨known, onwards, raises⟩ := lawful
  have settles (component : Component) (known : ∀ cell ∈ component.cells, given cell) :
      (Demand.settle component next).Lawful given none := by
    cases component with
    | lazy reference => exact ⟨known, onwards, raises⟩
    | _ => exact onwards _ known
  cases reference with
  | ready component => exact settles component known
  | entry view name => exact ⟨known, settles, raises⟩
  | default input cell => exact ⟨known, settles, raises⟩

/-- What goes on lawfully with every answer may follow a lawful demand. -/
theorem Lawful.bind {given : CellId → Prop} {f : Outcome → Demand}
    (onwards : Replies given fun raised outcome => (f outcome).Lawful given raised) {demand : Demand} :
    ∀ {raised : Option ComposeError}, demand.Lawful given raised → (demand.bind f).Lawful given raised := by
  induction demand with
  | done outcome =>
    intro raised lawful
    cases raised with
    | some error =>
      have same : outcome = .error error := by simpa [Lawful] using lawful
      subst same
      exact onwards.2 error
    | none =>
      cases outcome with
      | ok component => exact onwards.1 component lawful
      | error error => exact (onwards.2 error).of_raised lawful
  | panic => exact fun _ => trivial
  | get view name next ih =>
    intro raised lawful
    cases raised with
    | some error => exact lawful.elim
    | none => exact lawful.mono fun _ outcome => ih outcome
  | prior env name layer next ih =>
    intro raised lawful
    cases raised with
    | some error => exact lawful.elim
    | none => exact lawful.mono fun _ outcome => ih outcome
  | has view name next ih => exact fun lawful answer => ih answer (lawful answer)
  | hasPrior env name layer next ih => exact fun lawful answer => ih answer (lawful answer)
  | force reference next ih =>
    intro raised lawful
    cases reference with
    | ready component => exact ih _ lawful
    | _ =>
      cases raised with
      | some error => exact lawful.elim
      | none => exact ⟨lawful.1, lawful.2.mono fun _ outcome => ih outcome⟩
  | settle component next ih =>
    intro raised lawful
    cases component with
    | lazy reference =>
      cases raised with
      | some error => exact lawful.elim
      | none => exact ⟨lawful.1, lawful.2.mono fun _ outcome => ih outcome⟩
    | _ => exact ih _ lawful
  | allot input view body next ihBody ih =>
    exact fun lawful => ⟨lawful.1, fun cell known => ih cell (lawful.2 cell known)⟩
  | mark label next ih => exact ih
  | pause next ih => exact ih

/-- What goes on with a component may follow a lawful demand; errors pass through. -/
theorem Lawful.andThen {given : CellId → Prop} {demand : Demand} {f : Component → Demand}
    (lawful : demand.Lawful given none) (onwards : ∀ component, (∀ cell ∈ component.cells, given cell) → (f component).Lawful given none) :
    (demand.andThen f).Lawful given none := by
  refine lawful.bind ⟨onwards, fun error => ?_⟩
  rfl

end Demand

/-! ### Definitions -/

/-- The default cells that a binding refers to. -/
def Binding.cells : Binding → List CellId
  | .entry _ => []
  | .ready component => component.cells
  | .default cell => [cell]

/-- Bindings refer to given cells only. -/
def Inputs.Given (given : CellId → Prop) (inputs : Inputs) : Prop :=
  ∀ input binding, Dict.get? inputs.bindings input = some binding → ∀ cell ∈ binding.cells, given cell

/-- Asking for an input is lawful. -/
theorem Inputs.Given.get {given : CellId → Prop} {inputs : Inputs} (known : inputs.Given given) (input : String) :
    (inputs.get input).Lawful given none := by
  unfold Inputs.get
  split
  next => rfl
  next => exact ⟨fun _ => id, fun _ => rfl⟩
  next component found => exact known input _ found
  next cell found => exact ⟨known input _ found, fun _ => id, fun _ => rfl⟩

/-- The constructor and the defaults of a call site are lawful, and its pins are known. -/
structure CallSite.Lawful (given : CellId → Prop) (site : CallSite) : Prop where
  construct : ∀ inputs : Inputs, inputs.Given given → (site.descriptor.construct inputs).Lawful given none
  defaults : ∀ input default, Dict.get? site.descriptor.defaults input = some default →
    ∀ view, (default view).Lawful given none
  pins : ∀ input component, Dict.get? site.pins input = some (.value component) →
    ∀ cell ∈ component.cells, given cell

/-- A definition makes up no cells, whatever cells there are, and hands errors on. -/
def Definition.Lawful (given : CellId → Prop) : Definition → Prop
  | .call site => site.Lawful given
  | .thunk compute => ∀ scope, (compute scope).Lawful given none
  | .value component => ∀ cell ∈ component.cells, given cell
  | .aliasOf _ => True

namespace CallSite
variable {given : CellId → Prop} {site : CallSite}

private theorem Given.insert {component : String} {view : View} {bindings : Dict Binding}
    (known : Inputs.Given given ⟨component, view, bindings⟩) (input : String) {binding : Binding}
    (cells : ∀ cell ∈ binding.cells, given cell) :
    Inputs.Given given ⟨component, view, Dict.insert bindings input binding⟩ := by
  intro other found at'
  rw [Dict.get?_insert] at at'
  split at at'
  · cases at'
    exact cells
  · exact known other found at'

private theorem Lawful.bindInputs (lawful : site.Lawful given) (view : View)
    {next : Except ComposeError Inputs → Demand}
    (onwards : ∀ inputs : Inputs, inputs.Given given → (next (.ok inputs)).Lawful given none)
    (fails : ∀ error, error.isCycle = false → (next (.error error)).Lawful given none) (inputs : List String) :
    ∀ bindings : Dict Binding, Inputs.Given given ⟨site.descriptor.name, view, bindings⟩ →
      (site.bindInputs view next inputs bindings).Lawful given none := by
  induction inputs with
  | nil => exact fun bindings known => onwards _ known
  | cons input rest ih =>
    intro bindings known
    rw [CallSite.bindInputs]
    split
    next component pinned => exact ih _ (Given.insert known input (lawful.pins input component pinned))
    next =>
      intro answer
      cases answer with
      | true => exact ih _ (Given.insert known input (by simp [Binding.cells]))
      | false =>
        dsimp only
        split
        next default found =>
          refine ⟨lawful.defaults input default found view, fun cell made => ih _ (Given.insert known input ?_)⟩
          simpa [Binding.cells] using made
        next => exact fails _ rfl

/-- Injecting and constructing a lawful call site is lawful. -/
theorem Lawful.call (lawful : site.Lawful given) (view : View) : (site.call view).Lawful given none := by
  unfold CallSite.call CallSite.resolve
  split
  next => rfl
  next =>
    refine lawful.bindInputs view lawful.construct (fun error plain => by exact plain) _ _ ?_
    intro input binding found
    cases found

end CallSite

theorem Definition.Lawful.demand {given : CellId → Prop} {definition : Definition} (lawful : definition.Lawful given)
    (scope : Scope) : (definition.demand scope).Lawful given none := by
  cases definition with
  | call site => exact CallSite.Lawful.call lawful _
  | thunk compute => exact lawful scope
  | value component => exact lawful
  | aliasOf target => exact ⟨fun component known => known, fun error => rfl⟩

namespace World

/-- A cell is made by some computation. -/
def Made (world : World) (cell : CellId) : Prop :=
  ∃ input view body next, world.Reaches cell.origin cell.number (.allot input view body next)

/-- Every definition is lawful, whatever cells it is given beside those that are made. -/
def Lawful (world : World) : Prop :=
  ∀ env environment, world env = some environment → ∀ given, (∀ cell, world.Made cell → given cell) →
    environment.Every (Definition.Lawful given)

section
variable {world : World} {origin asked : Origin} {made made' : Nat} {demand demand' : Demand}
  {next : Outcome → Demand} {given : CellId → Prop} {raised : Option ComposeError}

/-- An error that is raised and is not that of a cycle is an answer like any other. -/
private theorem lawful_of_replies {error : ComposeError} (plain : error.isCycle = false)
    (replies : Demand.Replies given fun raised outcome => (next outcome).Lawful given raised) :
    (next (.error error)).Lawful given none := (replies.2 error).of_raised plain

/-- What follows at once on a lawful demand is lawful, if the cell that is made is given. -/
theorem lawful_of_further (lawful : demand.Lawful given raised)
    (follows : world.react origin made demand = .further made' demand')
    (known : ∀ input view body next, demand = .allot input view body next → given ⟨origin, made⟩) :
    demand'.Lawful given raised := by
  cases demand with
  | done outcome => cases follows
  | panic => cases follows
  | get view name next =>
    cases raised with
    | some error => exact lawful.elim
    | none =>
      simp only [react] at follows
      split at follows
      · cases follows
      · cases follows
        exact lawful_of_replies rfl lawful
  | prior env name layer next =>
    cases raised with
    | some error => exact lawful.elim
    | none =>
      simp only [react] at follows
      split at follows
      · cases follows
      · cases follows
        exact lawful_of_replies rfl lawful
  | has view name next =>
    cases follows
    exact lawful _
  | hasPrior env name layer next =>
    cases follows
    exact lawful _
  | force reference next =>
    cases reference with
    | entry view name =>
      cases raised with
      | some error => exact lawful.elim
      | none =>
        simp only [react] at follows
        split at follows
        · cases follows
          exact lawful.2
        · cases follows
          exact lawful_of_replies rfl lawful.2
    | ready component =>
      cases follows
      exact lawful
    | default input cell => cases follows
  | settle component next =>
    cases component with
    | lazy reference =>
      cases raised with
      | some error => exact lawful.elim
      | none =>
        cases follows
        exact lawful.follow
    | _ =>
      cases follows
      exact lawful
  | allot input view body next =>
    cases follows
    exact lawful.2 _ (known _ _ _ _ rfl)
  | mark label next =>
    cases follows
    exact lawful
  | pause next =>
    cases follows
    exact lawful

/-- Where an error was raised, nothing is asked. -/
theorem not_asks_of_raised {error : ComposeError} (lawful : demand.Lawful given (some error)) :
    world.react origin made demand ≠ .question asked next := by
  intro asks
  cases question_of_react asks <;> exact lawful.elim

/-- A default that is asked for is that of a given cell. -/
theorem given_of_question {cell : CellId} (lawful : demand.Lawful given none)
    (asks : world.react origin made demand = .question cell.computation next) : given cell := by
  generalize same : cell.computation = asked at asks
  cases question_of_react asks with
  | get found => cases same
  | prior found => cases same
  | default input other =>
    cases other
    cases cell
    cases same
    exact lawful.1 _ (by simp [LazyRef.cells])

/-- Where a lawful demand asks, no error was raised; it goes on with every component of
    known cells and raises every error. -/
theorem replies_of_question (lawful : demand.Lawful given raised)
    (asks : world.react origin made demand = .question asked next) :
    Demand.Replies given fun raised outcome => (next outcome).Lawful given raised := by
  cases raised with
  | some error => exact absurd asks (not_asks_of_raised lawful)
  | none =>
    cases question_of_react asks with
    | get found => exact lawful
    | prior found => exact lawful
    | default input cell => exact lawful.2

end

/-- Every demand that a computation of a lawful world comes to is lawful, whatever cells
    there are beside those that are made. -/
theorem Reaches.lawful {world : World} (lawful : world.Lawful) {origin : Origin} {made : Nat} {demand : Demand}
    (reaches : world.Reaches origin made demand) {given : CellId → Prop} (known : ∀ cell, world.Made cell → given cell) :
    demand.Lawful given none := by
  induction reaches with
  | definition slot =>
    unfold World.definition
    split
    next found at' =>
      obtain ⟨environment, here, member⟩ := Option.bind_eq_some_iff.mp at'
      exact (lawful slot.env environment here given known slot.name found (List.mem_of_find?_eq_some member)).demand _
    next => rfl
  | default allots ih =>
    unfold World.fallback
    split
    · exact ih.1
    · rfl
  | @further origin made made' demand demand' before follows ih =>
    refine lawful_of_further ih follows ?_
    rintro input view body next rfl
    exact known _ ⟨input, view, body, next, before⟩
  | @answer origin asked made made' demand next outcome before asks result ih ihResult =>
    have replies := replies_of_question ih asks
    cases outcome with
    | ok component => exact replies.1 component ihResult
    | error error => exact (replies.2 error).of_raised ihResult

theorem Yields.not_isCycle {world : World} (lawful : world.Lawful) {origin : Origin} {outcome : Outcome}
    (yields : world.Yields origin outcome) : Outcome.isCycle outcome = false := by
  obtain ⟨made, reaches⟩ := yields
  cases outcome with
  | ok component => rfl
  | error error => exact reaches.lawful lawful fun _ => id

end World
end Pkgset
